import LowDimLP.Proofs.Solver.Recession
/-!
# The candidate and its tag

What a level above the line knows of the half-spaces accepted so far (`Candidate`): a minimum is optimal
for them, an ambiguous point is feasible while the objective still descends, and after an infeasible
insertion they have no common point. The one exception is a lone half-space, whose boundary point is kept
untested until the second insertion. Every branch of an insertion keeps this (`insert_ensures`). Two
arguments carry the branches that go to the boundary of the new half-space: a violated candidate is on the
other side of it (`candidate_of_violated`), and a descent that it stops runs into it
(`candidate_of_stopped`).
-/

namespace LowDimLP.Level

variable {σ α : Type} [ExactScalar α] {n : Nat}

/-- What the state of a level says of the accepted half-spaces. -/
inductive Candidate (direction : Vec α n) : List (HalfSpace α n) → Option (Solution α n) → Prop where
  | nothing : Candidate direction [] none
  | lone {h : HalfSpace α n} (normalised : h.Normalised) :
      Candidate direction [h] (some (.ambiguous h.boundary.point))
  | unbounded {accepted : List (HalfSpace α n)} {p : Point α n} (many : 2 ≤ accepted.length)
      (feasible : Feasible accepted p) (descent : HasDescent accepted direction) :
      Candidate direction accepted (some (.ambiguous p))
  | settled {accepted : List (HalfSpace α n)} {p : Point α n} (many : 2 ≤ accepted.length)
      (optimal : IsOptimal accepted direction p) : Candidate direction accepted (some (.minimum p))
  | empty {accepted : List (HalfSpace α n)} (none : ∀ x, ¬Feasible accepted x) :
      Candidate direction accepted (some .infeasible)

theorem Candidate.eq_nil {direction : Vec α n} {accepted : List (HalfSpace α n)}
    (candidate : Candidate direction accepted none) : accepted = [] := by
  cases candidate
  rfl

theorem Candidate.ne_nil {direction : Vec α n} {accepted : List (HalfSpace α n)}
    {last : Solution α n} (candidate : Candidate direction accepted (some last)) :
    accepted ≠ [] := by
  cases candidate with
  | lone => simp
  | unbounded many => exact List.ne_nil_of_length_pos (by omega)
  | settled many => exact List.ne_nil_of_length_pos (by omega)
  | empty none =>
    intro nothing
    subst nothing
    exact none Point.origin (by simp [Feasible])

/-- While the objective is unbounded on several half-spaces with a common point, the candidate is
ambiguous. -/
theorem Candidate.ambiguous_of_unbounded {direction : Vec α n} {accepted : List (HalfSpace α n)}
    {last : Solution α n} (candidate : Candidate direction accepted (some last))
    (many : 2 ≤ accepted.length) {x : Point α n} (hx : Feasible accepted x)
    (unbounded : ¬BoundedBelow accepted direction) :
    ∃ p, last = .ambiguous p ∧ Feasible accepted p := by
  cases candidate with
  | lone => simp at many
  | unbounded _ feasible => exact ⟨_, rfl, feasible⟩
  | settled _ optimal => exact absurd ⟨_, optimal.le_eval⟩ unbounded
  | empty none => exact absurd hx (none x)

section Branches

variable {direction : Vec α n} {accepted : List (HalfSpace α n)} {h : HalfSpace α n} {p : Point α n}
  {solution : Solution α n}

omit [ExactScalar α] in
theorem two_le_length_append (nonempty : accepted ≠ []) : 2 ≤ (accepted ++ [h]).length := by
  have := List.length_pos_iff.mpr nonempty
  rw [List.length_append, List.length_singleton]
  omega

/-- A candidate that satisfies the new half-space stays optimal. -/
theorem isOptimal_append (optimal : IsOptimal accepted direction p) (kept : h.Holds p) :
    IsOptimal (accepted ++ [h]) direction p where
  feasible := feasible_append.mpr ⟨optimal.feasible, kept⟩
  le_eval x hx := optimal.le_eval x (feasible_append.mp hx).1

/-- A descent along the boundary leaves neither the accepted half-spaces nor the new one. -/
theorem not_hasBoundaryDescent (bounded : ¬HasDescent (accepted ++ [h]) direction) :
    ¬HasBoundaryDescent accepted h direction := by
  intro ⟨d, descent, along⟩
  exact absurd (descent.stopped bounded) (by rw [along]; exact lt_irrefl 0)

/-- If every feasible point of the new problem can be moved to the boundary without a loss, then the
boundary's answer is the new candidate. -/
theorem candidate_of_boundary (nonempty : accepted ≠ [])
    (moves : ∀ x, Feasible accepted x → h.Holds x →
      ∃ y, Feasible accepted y ∧ h.boundary.Holds y ∧ direction.eval y ≤ direction.eval x)
    (bounded : ¬HasBoundaryDescent accepted h direction)
    (answer : AnswersBoundary accepted h direction true solution) :
    Candidate direction (accepted ++ [h]) (some solution) := by
  rcases answer with ⟨rfl, missed⟩ | ⟨q, rfl, optimum⟩
  · refine .empty fun x hx => ?_
    obtain ⟨y, hy, on_boundary, -⟩ := moves x (feasible_append.mp hx).1 (feasible_append.mp hx).2
    exact missed y hy on_boundary
  · refine .settled (two_le_length_append nonempty) ⟨?_, fun x hx => ?_⟩
    · exact feasible_append.mpr ⟨optimum.feasible, HalfSpace.holds_of_boundary optimum.holds⟩
    · obtain ⟨y, hy, on_boundary, no_loss⟩ :=
        moves x (feasible_append.mp hx).1 (feasible_append.mp hx).2
      exact (optimum.le_eval bounded y hy on_boundary).trans no_loss

/-- An optimum that the new half-space excludes moves to its boundary. -/
theorem candidate_of_violated (nonempty : accepted ≠ [])
    (optimal : IsOptimal accepted direction p) (violated : ¬h.Holds p)
    (answer : AnswersBoundary accepted h direction true solution) :
    Candidate direction (accepted ++ [h]) (some solution) := by
  refine candidate_of_boundary nonempty ?_ ?_ answer
  · intro x hx inside
    obtain ⟨y, hy, on_boundary, between⟩ := exists_crossing optimal.feasible violated hx inside
    exact ⟨y, hy, on_boundary, between direction (optimal.le_eval x hx)⟩
  · intro ⟨d, descent, _⟩
    exact optimal.not_hasDescent ⟨d, descent⟩

/-- A descent that the new half-space is the first to stop runs into its boundary. -/
theorem candidate_of_stopped (nonempty : accepted ≠ []) (descent : HasDescent accepted direction)
    (bounded : ¬HasDescent (accepted ++ [h]) direction)
    (answer : AnswersBoundary accepted h direction true solution) :
    Candidate direction (accepted ++ [h]) (some solution) := by
  refine candidate_of_boundary nonempty ?_ (not_hasBoundaryDescent bounded) answer
  intro x hx inside
  obtain ⟨d, descent⟩ := descent
  exact exists_stop descent (descent.stopped bounded) hx inside

/-- While something descends, an excluded point is replaced by one of the boundary. -/
theorem candidate_of_unbounded (nonempty : accepted ≠ []) (feasible : Feasible accepted p)
    (violated : ¬h.Holds p) (descent : HasDescent (accepted ++ [h]) direction)
    (answer : AnswersBoundary accepted h direction false solution) :
    Candidate direction (accepted ++ [h]) (some solution) := by
  rcases answer with ⟨rfl, missed⟩ | ⟨q, rfl, optimum⟩
  · refine .empty fun x hx => ?_
    obtain ⟨inside, new⟩ := feasible_append.mp hx
    obtain ⟨y, hy, on_boundary, -⟩ := exists_crossing feasible violated inside new
    exact missed y hy on_boundary
  · refine .unbounded (two_le_length_append nonempty) ?_ descent
    exact feasible_append.mpr ⟨optimum.feasible, HalfSpace.holds_of_boundary optimum.holds⟩

end Branches

/-! ## One insertion -/

section Insertion

variable {below : SolverOf σ α n} {tol : Tolerance α} {direction : Vec α (n + 1)}
  {accepted : List (HalfSpace α (n + 1))} {h : HalfSpace α (n + 1)} {p : Point α (n + 1)}

/-- An insertion at an optimal candidate. -/
theorem keep_or_descend_ensures (sound : SolverOf.Sound below) (det : tol.det = 0)
    (feas : tol.feas = 0) (normalised : h.Normalised) (nonempty : accepted ≠ [])
    (optimal : IsOptimal accepted direction p) :
    (if h.containsWithin p tol.feas then pure (.minimum p)
      else descend below tol direction accepted h true : Run σ (Solution α (n + 1))).Ensures
      fun next => Candidate direction (accepted ++ [h]) (some next) := by
  apply Run.Ensures.ite'
  · intro kept
    rw [feas, HalfSpace.containsWithin_zero_iff] at kept
    exact Run.Ensures.pure' (.settled (two_le_length_append nonempty) (isOptimal_append optimal kept))
  · intro violated
    rw [feas, HalfSpace.containsWithin_zero_iff] at violated
    exact (descend_ensures sound det feas normalised true).mono fun solution answer =>
      candidate_of_violated nonempty optimal violated answer

/-- An insertion while something descends: the new half-space stops every descent, or it does not. -/
theorem stop_or_keep_ensures (sound : SolverOf.Sound below) (det : tol.det = 0)
    (feas : tol.feas = 0) (normalised : h.Normalised) (nonempty : accepted ≠ [])
    (feasible : Feasible accepted p) (descent : HasDescent accepted direction) :
    (do
      if ← objectiveBounded below tol direction (accepted ++ [h]) then
        descend below tol direction accepted h true
      else if h.containsWithin p tol.feas then pure (.ambiguous p)
      else descend below tol direction accepted h false : Run σ (Solution α (n + 1))).Ensures
      fun next => Candidate direction (accepted ++ [h]) (some next) := by
  refine Run.Ensures.bind' (objectiveBounded_ensures sound det feas) fun bounded decided => ?_
  apply Run.Ensures.ite'
  · intro stopped
    exact (descend_ensures sound det feas normalised true).mono fun solution answer =>
      candidate_of_stopped nonempty descent (decided.mp stopped) answer
  · intro goes_on
    have descent : HasDescent (accepted ++ [h]) direction :=
      not_not.mp fun level => goes_on (decided.mpr level)
    apply Run.Ensures.ite'
    · intro kept
      rw [feas, HalfSpace.containsWithin_zero_iff] at kept
      exact Run.Ensures.pure' (.unbounded (two_le_length_append nonempty)
        (feasible_append.mpr ⟨feasible, kept⟩) descent)
    · intro violated
      rw [feas, HalfSpace.containsWithin_zero_iff] at violated
      exact (descend_ensures sound det feas normalised false).mono fun solution answer =>
        candidate_of_unbounded nonempty feasible violated descent answer

/-- An insertion at an ambiguous point. A lone half-space may bound the objective already and is tested
late, at the second insertion; with more of them accepted the tag says that something descends. -/
theorem insertUnsettled_ensures (sound : SolverOf.Sound below) (det : tol.det = 0)
    (feas : tol.feas = 0) (normalised : h.Normalised)
    (candidate : Candidate direction accepted (some (.ambiguous p))) :
    (insertUnsettled below tol direction accepted p h).Ensures
      fun next => Candidate direction (accepted ++ [h]) (some next) := by
  rw [insertUnsettled]
  cases candidate with
  | @lone first normal =>
    have feasible : Feasible [first] first.boundary.point := by
      simpa [Feasible] using HalfSpace.holds_of_boundary normal.holds_point
    rw [if_pos List.length_singleton]
    refine Run.Ensures.bind' (objectiveBounded_ensures sound det feas) fun bounded decided => ?_
    cases bounded with
    | true =>
      -- The lone half-space bounds the objective, and its boundary point was optimal all along.
      exact keep_or_descend_ensures sound det feas normalised (by simp)
        (isOptimal_singleton normal (decided.mp rfl))
    | false =>
      exact stop_or_keep_ensures sound det feas normalised (by simp) feasible
        (not_not.mp fun level => Bool.false_ne_true (decided.mpr level))
  | unbounded many feasible descent =>
    have nonempty : accepted ≠ [] := List.ne_nil_of_length_pos (by omega)
    rw [if_neg (by omega)]
    refine Run.Ensures.bind' (Run.Ensures.pure' rfl) fun settled (untested : false = settled) => ?_
    subst untested
    exact stop_or_keep_ensures sound det feas normalised nonempty feasible descent

theorem insert_ensures (sound : SolverOf.Sound below) (det : tol.det = 0) (feas : tol.feas = 0)
    (normalised : h.Normalised) {state : Option (Solution α (n + 1))}
    (candidate : Candidate direction accepted state) :
    (insert below tol direction accepted state h).Ensures
      fun next => Candidate direction (accepted ++ [h]) (some next) := by
  cases state with
  | none =>
    cases candidate
    exact Run.Ensures.pure' (.lone normalised)
  | some solution =>
    cases solution with
    | minimum p =>
      cases candidate with
      | settled many optimal =>
        have nonempty : accepted ≠ [] := List.ne_nil_of_length_pos (by omega)
        exact keep_or_descend_ensures sound det feas normalised nonempty optimal
    | ambiguous p => exact insertUnsettled_ensures sound det feas normalised candidate
    | infeasible =>
      cases candidate with
      | empty none =>
        exact Run.Ensures.pure' (.empty fun x hx => none x (feasible_append.mp hx).1)

end Insertion

end LowDimLP.Level
