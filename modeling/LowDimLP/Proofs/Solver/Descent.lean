import LowDimLP.Proofs.Geometry.Trace
import LowDimLP.Proofs.Solver.Branches
/-!
# What a level asks of the level below

A level below is sound when its answers are: a point that it reports is feasible, it reports none only if
there is none, and where nothing descends the point is optimal. That nothing descends, rather than that the
objective is bounded, is what passes from a level to the next: a descent of the traces in the chart is a
descent of the half-spaces along the boundary. With a sound level below, `Level.descend` solves the problem
on a boundary (`descend_ensures`) and `Level.objectiveBounded` decides whether anything descends
(`objectiveBounded_ensures`), both from every source.
-/

namespace LowDimLP

variable {σ α : Type} [ExactScalar α] {n : Nat}

/-- What makes a solution an answer to the linear program. -/
structure Solution.Sound (halfSpaces : List (HalfSpace α n)) (direction : Vec α n)
    (solution : Solution α n) : Prop where
  feasible : ∀ p, solution.point? = some p → Feasible halfSpaces p
  empty : solution.point? = none → ∀ x, ¬Feasible halfSpaces x
  optimal : ∀ p, solution.point? = some p → ¬HasDescent halfSpaces direction →
    IsOptimal halfSpaces direction p

/-- The answer of a level: a sound one, and ambiguous only for a lone half-space, whose boundary point it
then is, or while something descends. -/
structure Solution.Answers (halfSpaces : List (HalfSpace α n)) (direction : Vec α n)
    (solution : Solution α n) : Prop extends Solution.Sound halfSpaces direction solution where
  lone : ∀ h, halfSpaces = [h] → solution = .ambiguous h.boundary.point
  settled : 2 ≤ halfSpaces.length → ¬HasDescent halfSpaces direction → ∀ p, solution ≠ .ambiguous p

omit [ExactScalar α] in
theorem ne_singleton_of_many {halfSpaces : List (HalfSpace α n)} (many : 2 ≤ halfSpaces.length)
    (h : HalfSpace α n) : halfSpaces ≠ [h] := by
  intro single
  rw [single, List.length_singleton] at many
  omega

theorem Solution.answers_lone {h : HalfSpace α n} (normalised : h.Normalised)
    (direction : Vec α n) :
    (Solution.ambiguous h.boundary.point).Answers [h] direction where
  feasible := by
    intro p reported
    cases reported
    simpa [Feasible] using HalfSpace.holds_of_boundary normalised.holds_point
  empty := by simp [Solution.point?]
  optimal := by
    intro p reported level
    cases reported
    exact isOptimal_singleton normalised level
  lone := by simp
  settled := by simp

/-- The answer for several half-spaces with a common point, of which none descends, is an optimum. -/
theorem Solution.Answers.exists_minimum {halfSpaces : List (HalfSpace α n)} {direction : Vec α n}
    {solution : Solution α n} {x : Point α n} (answers : solution.Answers halfSpaces direction)
    (many : 2 ≤ halfSpaces.length) (hx : Feasible halfSpaces x)
    (level : ¬HasDescent halfSpaces direction) :
    ∃ p, solution = .minimum p ∧ IsOptimal halfSpaces direction p := by
  cases solution with
  | minimum p => exact ⟨p, rfl, answers.optimal p rfl level⟩
  | ambiguous p => exact absurd rfl (answers.settled many level p)
  | infeasible => exact absurd hx (answers.empty rfl x)

/-- The answer for the accepted half-spaces is one for all of them, if all are accepted or none of their
points is feasible. -/
theorem Solution.Answers.of_accepted {accepted halfSpaces : List (HalfSpace α n)}
    {direction : Vec α n} {solution : Solution α n} (nonempty : accepted ≠ [])
    (items : accepted.Subperm halfSpaces) (all : accepted.Perm halfSpaces ∨ solution = .infeasible)
    (answers : solution.Answers accepted direction) : solution.Answers halfSpaces direction := by
  rcases all with perm | rfl
  · refine ⟨⟨fun p point => ?_, fun none x => ?_, fun p point level => ?_⟩, fun h single => ?_,
      fun many level => ?_⟩
    · exact (feasible_perm perm).mp (answers.feasible p point)
    · exact fun hx => answers.empty none x ((feasible_perm perm).mpr hx)
    · exact (answers.optimal p point fun descent => level ((hasDescent_perm perm).mp descent)).perm perm
    · rw [single, List.perm_singleton] at perm
      exact answers.lone h perm
    · exact answers.settled (perm.length_eq ▸ many)
        (fun descent => level ((hasDescent_perm perm).mp descent))
  · refine ⟨⟨fun p point => ?_, fun _ x hx => ?_, fun p point => ?_⟩, fun h single => ?_,
      fun _ _ p => ?_⟩
    · cases point
    · exact answers.empty rfl x fun h hh => hx h (items.subset hh)
    · cases point
    · have short : accepted.length ≤ 1 := by simpa [single] using items.length_le
      have long := List.length_pos_iff.mpr nonempty
      obtain ⟨g, lone⟩ := List.length_eq_one_iff.mp (by omega : accepted.length = 1)
      exact absurd (answers.lone g lone) (by simp)
    · simp

/-- A level whose answers to linear programs of normalised half-spaces are sound. -/
def SolverOf.Sound (level : SolverOf σ α n) : Prop :=
  ∀ halfSpaces direction, halfSpaces ≠ [] → (∀ h ∈ halfSpaces, h.Normalised) →
    (level halfSpaces direction).Ensures (Solution.Sound halfSpaces direction)

/-- A descent along the boundary of `h`. -/
def HasBoundaryDescent (accepted : List (HalfSpace α n)) (h : HalfSpace α n)
    (direction : Vec α n) : Prop :=
  ∃ d, IsDescent accepted direction d ∧ h.boundary.normal.dot d = 0

/-- A point of the boundary of `h` that answers the problem there. -/
structure IsBoundaryOptimum (accepted : List (HalfSpace α n)) (h : HalfSpace α n)
    (direction : Vec α n) (p : Point α n) : Prop where
  holds : h.boundary.Holds p
  feasible : Feasible accepted p
  le_eval : ¬HasBoundaryDescent accepted h direction →
    ∀ x, Feasible accepted x → h.boundary.Holds x → direction.eval p ≤ direction.eval x

/-! ## Through the chart -/

section Chart

variable {accepted : List (HalfSpace α (n + 1))} {h : HalfSpace α (n + 1)}
  {direction : Vec α (n + 1)} {reduced : List (HalfSpace α n)}

/-- A descent of the traces, carried to the boundary. -/
theorem hasBoundaryDescent_of_reduced (pivot : (Frame.on h.boundary).pivot ≠ 0)
    (traces : Frame.TracesOf (Frame.on h.boundary) accepted reduced)
    (descent : HasDescent reduced (direction.reduce (Frame.on h.boundary))) :
    HasBoundaryDescent accepted h direction := by
  obtain ⟨d, stays, falls⟩ := descent
  let frame := Frame.on h.boundary
  refine ⟨(frame.lift Point.origin).displacement (frame.lift (Point.origin.translate d)),
    ⟨fun g hg => ?_, ?_⟩, ?_⟩
  · rw [Frame.dot_displacement_lift pivot]
    exact traces.stays d stays g hg
  · rw [Frame.dot_displacement_lift pivot]
    exact falls
  · rw [Vec.dot_displacement, sub_eq_zero]
    exact (Frame.plane_eval_lift pivot _).trans (Frame.plane_eval_lift pivot _).symm

/-- An answer in the chart, lifted to the boundary. -/
theorem isBoundaryOptimum_lift (pivot : (Frame.on h.boundary).pivot ≠ 0)
    (traces : Frame.TracesOf (Frame.on h.boundary) accepted reduced) {q : Point α n}
    (feasible : Feasible reduced q)
    (optimal : ¬HasDescent reduced (direction.reduce (Frame.on h.boundary)) →
      IsOptimal reduced (direction.reduce (Frame.on h.boundary)) q) :
    IsBoundaryOptimum accepted h direction ((Frame.on h.boundary).lift q) := by
  refine ⟨Frame.plane_eval_lift pivot q, (traces.feasible_iff q).mp feasible, ?_⟩
  intro level x hx on_boundary
  obtain ⟨y, rfl⟩ := Frame.exists_lift_eq pivot on_boundary
  have least := (optimal fun descent => level (hasBoundaryDescent_of_reduced pivot traces descent)).le_eval
    y ((traces.feasible_iff y).mpr hx)
  rw [Frame.eval_lift pivot le_rfl, Frame.eval_lift pivot le_rfl]
  exact add_le_add_left least _

/-- Where no half-space bounds the chart and nothing descends, every point is optimal. -/
theorem isOptimal_of_unconstrained {c : Vec α n} (level : ¬HasDescent [] c) (q : Point α n) :
    IsOptimal [] c q := by
  refine ⟨by simp [Feasible], fun y _ => ?_⟩
  by_contra less
  apply level
  refine ⟨q.displacement y, by simp, ?_⟩
  rw [Vec.dot_displacement]
  exact sub_neg.mpr (not_le.mp less)

end Chart

namespace Level

variable {below : SolverOf σ α n} {tol : Tolerance α} {direction : Vec α (n + 1)}
  {accepted : List (HalfSpace α (n + 1))} {h : HalfSpace α (n + 1)}

/-- The answer of a descent: none, if the boundary misses the accepted half-spaces, or a point that
answers the problem on the boundary, tagged by whether the objective is known to be bounded. -/
def AnswersBoundary (accepted : List (HalfSpace α n)) (h : HalfSpace α n) (direction : Vec α n)
    (bounded : Bool) (solution : Solution α n) : Prop :=
  (solution = .infeasible ∧ ∀ x, Feasible accepted x → ¬h.boundary.Holds x) ∨
    ∃ p, solution = (if bounded then .minimum p else .ambiguous p) ∧
      IsBoundaryOptimum accepted h direction p

/-- The same of the point that the chart gives, before it is tagged. -/
def FoundOnBoundary (accepted : List (HalfSpace α n)) (h : HalfSpace α n) (direction : Vec α n)
    (found : Option (Point α n)) : Prop :=
  (found = none ∧ ∀ x, Feasible accepted x → ¬h.boundary.Holds x) ∨
    ∃ p, found = some p ∧ IsBoundaryOptimum accepted h direction p

theorem tag_ensures {found : Option (Point α (n + 1))}
    (answered : FoundOnBoundary accepted h direction found) (bounded : Bool) :
    (match found with
      | none => pure .infeasible
      | some p => pure (if bounded then .minimum p else .ambiguous p) : Run σ _).Ensures
      (AnswersBoundary accepted h direction bounded) := by
  obtain ⟨rfl, missed⟩ | ⟨p, rfl, optimum⟩ := answered
  · exact Run.Ensures.pure' (.inl ⟨rfl, missed⟩)
  · exact Run.Ensures.pure' (.inr ⟨p, rfl, optimum⟩)

/-- A chart without feasible points is a boundary without any. -/
theorem boundary_missed (pivot : (Frame.on h.boundary).pivot ≠ 0)
    (missed : ∀ y, ¬Feasible accepted ((Frame.on h.boundary).lift y)) :
    ∀ x, Feasible accepted x → ¬h.boundary.Holds x := by
  intro x hx on_boundary
  obtain ⟨y, hy⟩ := (Frame.exists_holds_iff pivot).mp ⟨x, on_boundary, hx⟩
  exact missed y hy

theorem descend_ensures (sound : SolverOf.Sound below) (det : tol.det = 0) (feas : tol.feas = 0)
    (normalised : h.Normalised) (bounded : Bool) :
    (descend below tol direction accepted h bounded).Ensures
      (AnswersBoundary accepted h direction bounded) := by
  have pivot := Frame.pivot_on_ne_zero normalised.normal_ne_zero
  have plane : (Frame.on h.boundary).plane.Normalised := normalised
  cases traced : (Frame.on h.boundary).traces tol accepted with
  | none =>
    simp only [descend, traced]
    have missed := Frame.traces_none plane pivot det feas traced
    exact Run.Ensures.pure' (.inl ⟨rfl, boundary_missed pivot missed⟩)
  | some reduced =>
    have traces := Frame.traces_some plane pivot det feas traced
    simp only [descend, traced]
    apply Run.Ensures.ite'
    · -- No bound is left in the chart: the level below is not asked, and any point will do.
      intro unconstrained
      obtain rfl := List.isEmpty_iff.mp unconstrained
      obtain ⟨q, lifted⟩ := Frame.exists_lift_eq pivot plane.holds_point
      refine Run.Ensures.bind' (Run.Ensures.pure' (.inr ⟨_, rfl, ?_⟩))
        fun _ answered => tag_ensures answered bounded
      rw [← lifted]
      exact isBoundaryOptimum_lift pivot traces (by simp [Feasible])
        fun level => isOptimal_of_unconstrained level q
    · intro constrained
      have nonempty : reduced ≠ [] := fun h => constrained (List.isEmpty_iff.mpr h)
      refine Run.Ensures.bind' (sound reduced _ nonempty traces.normalised) ?_
      intro solution answer
      refine Run.Ensures.bind' (Run.Ensures.pure' ?_) fun _ answered => tag_ensures answered bounded
      cases point : solution.point? with
      | none =>
        refine .inl ⟨rfl, boundary_missed pivot fun y hy => ?_⟩
        exact answer.empty point y ((traces.feasible_iff y).mpr hy)
      | some q =>
        exact .inr ⟨_, rfl, isBoundaryOptimum_lift pivot traces (answer.feasible q point)
          (answer.optimal q point)⟩

end Level

end LowDimLP
