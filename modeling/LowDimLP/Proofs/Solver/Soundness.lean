import LowDimLP.Proofs.Solver.Candidate
import LowDimLP.Proofs.Solver.Line
import LowDimLP.Proofs.Solver.Vertices
import LowDimLP.Solver
import LowDimLP.Proofs.Solver.Insertion
/-!
# Every level is sound

A run above the line ends with a candidate for the accepted half-spaces, and settling keeps it an answer. By
induction on the dimension, with the line at its bottom, every level is sound (`Level.solve_answers`), and
`solve`, which checks its problem before it runs, gives what its level gives (`solve_ensures`).
-/

namespace LowDimLP

variable {σ α : Type} {n : Nat}

section Levels

variable [ExactScalar α]

/-- No tolerance at all. -/
def Tolerance.exact : Tolerance α := ⟨0, 0⟩

@[simp] theorem Tolerance.exact_det : (exact : Tolerance α).det = 0 := rfl

@[simp] theorem Tolerance.exact_feas : (exact : Tolerance α).feas = 0 := rfl

/-! ## Answers of a run above the line -/

namespace Solution

variable {halfSpaces : List (HalfSpace α n)} {direction : Vec α n} {p : Point α n}

theorem answers_of_descent {solution : Solution α n} (many : 2 ≤ halfSpaces.length)
    (descent : HasDescent halfSpaces direction) (point : solution.point? = some p)
    (feasible : Feasible halfSpaces p) : solution.Answers halfSpaces direction where
  feasible := by
    intro q reported
    rw [point] at reported
    cases reported
    exact feasible
  empty := by simp [point]
  optimal _ _ level := absurd descent level
  lone h single := absurd single (ne_singleton_of_many many h)
  settled _ level := absurd descent level

theorem answers_of_optimal (many : 2 ≤ halfSpaces.length)
    (optimal : IsOptimal halfSpaces direction p) :
    (minimum p).Answers halfSpaces direction where
  feasible := by
    intro q reported
    cases reported
    exact optimal.feasible
  empty := by simp [point?]
  optimal := by
    intro q reported _
    cases reported
    exact optimal
  lone h single := absurd single (ne_singleton_of_many many h)
  settled := by simp

/-- Nothing is feasible for several half-spaces only: a lone normalised one has its boundary point. -/
theorem answers_of_empty (normalised : ∀ h ∈ halfSpaces, h.Normalised)
    (none : ∀ x, ¬Feasible halfSpaces x) :
    (infeasible : Solution α n).Answers halfSpaces direction where
  feasible := by simp [point?]
  empty _ := none
  optimal := by simp [point?]
  lone := by
    intro h single
    subst single
    have unit : h.Normalised := normalised h List.mem_cons_self
    exact absurd ((Solution.answers_lone unit direction).feasible _ rfl) (none _)
  settled := by simp

end Solution

namespace Level

section Settling

variable {tol : Tolerance α} {accepted : List (HalfSpace α (n + 2))} {direction : Vec α (n + 2)}

/-- A lone half-space above the line has no vertices: there are no two boundaries to choose. -/
theorem bestVertex?_lone (h : HalfSpace α (n + 2)) : bestVertex? tol direction [h] = none := by
  cases best : bestVertex? tol direction [h] with
  | none => rfl
  | some v =>
    obtain ⟨⟨chosen, choice, -⟩, -⟩ := mem_vertices.mp (bestVertex?_spec best).1
    obtain ⟨sublist, length⟩ := (mem_choices_iff (Nat.succ_pos _)).mp choice
    have short := sublist.length_le
    rw [List.length_singleton] at short
    omega

/-- An ambiguous point is replaced by the best vertex, and kept when there is none. -/
theorem settle_ambiguous (det : tol.det = 0) (feas : tol.feas = 0)
    (normalised : ∀ h ∈ accepted, h.Normalised) (direction : Vec α (n + 2)) (p : Point α (n + 2)) :
    (∃ v, settle tol direction accepted (.ambiguous p) = .minimum v ∧ IsVertex accepted v ∧
        ∀ w, IsVertex accepted w → direction.eval v ≤ direction.eval w) ∨
      settle tol direction accepted (.ambiguous p) = .ambiguous p ∧ ∀ v, ¬IsVertex accepted v := by
  have scanned : ∀ v, v ∈ vertices tol accepted ↔ IsVertex accepted v :=
    fun v => mem_vertices_iff det feas normalised
  cases best : bestVertex? tol direction accepted with
  | none =>
    refine .inr ⟨by rw [settle, best], fun v vertex => ?_⟩
    have found := (scanned v).mpr vertex
    rw [vertices_eq_nil_of_bestVertex? best] at found
    cases found
  | some v =>
    obtain ⟨found, least⟩ := bestVertex?_spec best
    exact .inl ⟨v, by rw [settle, best], (scanned v).mp found,
      fun w vertex => least w ((scanned w).mpr vertex)⟩

/-- Settling on the best vertex keeps the candidate an answer. -/
theorem settle_answers (det : tol.det = 0) (feas : tol.feas = 0) (normalised : ∀ h ∈ accepted, h.Normalised)
    {last : Solution α (n + 2)} (candidate : Candidate direction accepted (some last)) :
    (settle tol direction accepted last).Answers accepted direction := by
  cases candidate with
  | @lone h unit =>
    rw [settle, bestVertex?_lone]
    exact Solution.answers_lone unit direction
  | @unbounded _ p many feasible descent =>
    rcases settle_ambiguous det feas normalised direction p with
      ⟨v, settled, vertex, -⟩ | ⟨kept, -⟩
    · rw [settled]
      exact Solution.answers_of_descent many descent rfl vertex.feasible
    · rw [kept]
      exact Solution.answers_of_descent many descent rfl feasible
  | settled many optimal => exact Solution.answers_of_optimal many optimal
  | empty none => exact Solution.answers_of_empty normalised none

end Settling

section Run

variable [PickSource σ] {below : SolverOf σ α (n + 1)} {tol : Tolerance α} {direction : Vec α (n + 2)}
  {halfSpaces : List (HalfSpace α (n + 2))}

omit [PickSource σ] in
theorem insert_preserves (sound : SolverOf.Sound below) (det : tol.det = 0) (feas : tol.feas = 0)
    (normalised : ∀ h ∈ halfSpaces, h.Normalised) :
    Insertion.Preserves (insert below tol direction) Solution.isInfeasible
      (pending halfSpaces).toList (Candidate direction) :=
  fun _ _ h candidate _ hh => insert_ensures sound det feas (normalised h hh) candidate

/-- A run above the line settles a candidate for the accepted half-spaces, which are all of them unless
they are infeasible. -/
theorem solveAbove_ensures (sound : SolverOf.Sound below) (det : tol.det = 0) (feas : tol.feas = 0)
    (nonempty : halfSpaces ≠ []) (normalised : ∀ h ∈ halfSpaces, h.Normalised) :
    (solveAbove below tol halfSpaces direction).Ensures fun solution =>
      ∃ accepted last, solution = settle tol direction accepted last ∧
        Candidate direction accepted (some last) ∧ accepted.Subperm halfSpaces ∧
          (accepted.Perm halfSpaces ∨ last = .infeasible) := by
  refine Run.Ensures.bind' (Insertion.insertAll_ensures
    (insert_preserves sound det feas normalised) .nothing (fun _ => Candidate.eq_nil) nonempty) ?_
  intro ⟨accepted, state⟩ ⟨last, ended, candidate, items, all⟩
  obtain rfl : state = _ := ended
  exact Run.Ensures.pure'
    ⟨accepted, last, rfl, candidate, items, all.imp id Solution.isInfeasible_iff.mp⟩

end Run

/-- Every level gives answers, by induction on the dimension. -/
theorem solve_answers [PickSource σ] {tol : Tolerance α} (det : tol.det = 0) (feas : tol.feas = 0) (n : Nat)
    {halfSpaces : List (HalfSpace α (n + 1))} (direction : Vec α (n + 1)) (nonempty : halfSpaces ≠ [])
    (normalised : ∀ h ∈ halfSpaces, h.Normalised) :
    (solve tol n halfSpaces direction : Run σ _).Ensures
      (Solution.Answers halfSpaces direction) := by
  -- A level asks the one below only for soundness; what its own answer says is proved anew.
  induction n with
  | zero =>
    rw [solve, if_pos direction.isFinite_eq_true]
    refine (solveLine_ensures nonempty).mono ?_
    intro solution ⟨range, reached⟩
    exact answers_of_lineState normalised det feas reached
  | succ n ih =>
    have sound : SolverOf.Sound (solve tol n : SolverOf σ α (n + 1)) :=
      fun halfSpaces direction nonempty normalised =>
        (ih direction nonempty normalised).mono fun _ answers => answers.toSound
    rw [solve, if_pos direction.isFinite_eq_true]
    refine (solveAbove_ensures sound det feas nonempty normalised).mono ?_
    intro solution ⟨accepted, last, settled, candidate, items, all⟩
    subst settled
    have units : ∀ h ∈ accepted, h.Normalised := fun h hh => normalised h (items.subset hh)
    refine Solution.Answers.of_accepted candidate.ne_nil items ?_ (settle_answers det feas units candidate)
    refine all.imp id fun stopped => ?_
    rw [stopped]
    rfl

theorem solve_sound [PickSource σ] {tol : Tolerance α} (det : tol.det = 0) (feas : tol.feas = 0)
    (n : Nat) : SolverOf.Sound (solve tol n : SolverOf σ α (n + 1)) :=
  fun _ direction nonempty normalised =>
    (solve_answers det feas n direction nonempty normalised).mono fun _ answers => answers.toSound

/-- How a run above the line ends. -/
theorem solve_settles [PickSource σ] {tol : Tolerance α} (det : tol.det = 0) (feas : tol.feas = 0)
    {halfSpaces : List (HalfSpace α (n + 2))} (direction : Vec α (n + 2)) (nonempty : halfSpaces ≠ [])
    (normalised : ∀ h ∈ halfSpaces, h.Normalised) :
    (solve tol (n + 1) halfSpaces direction : Run σ _).Ensures fun solution =>
      ∃ accepted last, solution = settle tol direction accepted last ∧
        Candidate direction accepted (some last) ∧ accepted.Subperm halfSpaces ∧
          (accepted.Perm halfSpaces ∨ last = .infeasible) := by
  rw [solve, if_pos direction.isFinite_eq_true]
  exact solveAbove_ensures (solve_sound det feas n) det feas nonempty normalised

end Level

end Levels

/-! ## The solver around the levels -/

namespace Solver

theorem checkDimensions_map [Scalar α] (dim index : Nat) (halfSpaces : List (HalfSpace α dim)) :
    checkDimensions dim index (halfSpaces.map (Sigma.mk dim)) = .ok halfSpaces := by
  induction halfSpaces generalizing index with
  | nil => rfl
  | cons h hs ih => simp [checkDimensions, AnyHalfSpace.ofDim?, ih, Except.map]

/-- A problem that is not empty and of one dimension passes the checks. -/
theorem ofProblem_map [OrderedScalar α] {halfSpaces : List (HalfSpace α (n + 1))} (nonempty : halfSpaces ≠ [])
    (direction : Vec α (n + 1)) :
    ofProblem (halfSpaces.map (Sigma.mk (n + 1))) ⟨n + 1, direction⟩ =
      .ok ⟨n, halfSpaces, direction, Tolerance.standard, .ready⟩ := by
  have some_halfSpace : (halfSpaces.map (Sigma.mk (n + 1))).isEmpty = false := by
    simpa using nonempty
  simp only [ofProblem, some_halfSpace, Vec.isFinite_eq_true, checkDimensions_map]
  rfl

end Solver

variable [OrderedScalar α] [PickSource σ]

/-- The run of a problem that passes the checks is the run of its level. -/
theorem solve_eq_of_level {tol : Tolerance α} {halfSpaces : List (HalfSpace α (n + 1))}
    {direction : Vec α (n + 1)} {solution : Solution α (n + 1)} {source rest : σ} (nonempty : halfSpaces ≠ [])
    (run : Level.solve tol n halfSpaces direction source = (.ok solution, rest)) :
    solve (halfSpaces.map (Sigma.mk (n + 1))) ⟨n + 1, direction⟩ tol source =
      (.ok ⟨n + 1, solution⟩, rest) := by
  simp only [solve, Solver.ofProblem_map nonempty, Solver.withTolerance, Solver.run, run,
    Solver.solution?]
  rfl

theorem solve_ensures {tol : Tolerance α} {halfSpaces : List (HalfSpace α (n + 1))}
    {direction : Vec α (n + 1)} {P : Solution α (n + 1) → Prop} (nonempty : halfSpaces ≠ [])
    (level : (Level.solve tol n halfSpaces direction : Run σ _).Ensures P) :
    (solve (halfSpaces.map (Sigma.mk (n + 1))) ⟨n + 1, direction⟩ tol : Run σ _).Ensures
      fun answer => ∃ solution, answer = ⟨n + 1, solution⟩ ∧ P solution := by
  intro source
  obtain ⟨solution, rest, run, holds⟩ := level source
  exact ⟨⟨n + 1, solution⟩, rest, solve_eq_of_level nonempty run, solution, rfl, holds⟩

end LowDimLP
