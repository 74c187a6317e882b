import LowDimLP.Proofs.Solver.Correctness
import LowDimLP.Proofs.Solver.Failure
import LowDimLP.Proofs.Solver.Building
import LowDimLP.Proofs.Checked.Agreement
/-!
# First runs are safe

A solver that could be built holds at least one half-space, all of its direction's dimension, and a finite
direction (`Solver.eq_of_ofProblem`). Its first run, with every index and every asserted dimension checked,
ends without a fault, in a point of the solver's dimension or in one of the two errors that values can cause;
in exact arithmetic there is no error either (`Solver.first_run_safe`).
-/

namespace LowDimLP

/-- The rows of a half-space of some dimension. -/
def AnyHalfSpace.rows {α : Type} (h : AnyHalfSpace α) : Checked.PlaneRows α := h.2.rows

namespace Solver

variable {σ α : Type} [PickSource σ]

section Run

variable [Scalar α] {halfSpaces : List (AnyHalfSpace α)} {direction : AnyVec α} {solver : Solver α}
  {tol : Tolerance α} {source rest : σ} (ready : solver.status = .ready)

include ready

theorem run_eq_of_ok {solution : Solution α (solver.n + 1)}
    (level : Level.solve tol solver.n solver.halfSpaces solver.direction source = (.ok solution, rest)) :
    (solver.withTolerance tol).run source =
      (.ok solution.kind, { solver with tolerance := tol, status := .finished solution }, rest) := by
  simp [run, withTolerance, ready, level]

theorem run_eq_of_error {e : SolverError}
    (level : Level.solve tol solver.n solver.halfSpaces solver.direction source = (.error e, rest)) :
    (solver.withTolerance tol).run source =
      (.error e, { solver with tolerance := tol, status := .failed }, rest) := by
  simp [run, withTolerance, ready, level]

end Run

/-- The checked first run of a solver does what its level does. -/
theorem firstRun_agrees [Scalar α] {halfSpaces : List (AnyHalfSpace α)} {direction : AnyVec α}
    {solver : Solver α} (built : ofProblem halfSpaces direction = .ok solver) (tol : Tolerance α) :
    (Checked.firstRun tol (halfSpaces.map AnyHalfSpace.rows) direction.2.toList : Checked.Run σ _).Agrees
      Solution.rows (Level.solve tol solver.n solver.halfSpaces solver.direction) := by
  obtain ⟨given, along, -, finite, -⟩ := eq_of_ofProblem built
  have rows : halfSpaces.map AnyHalfSpace.rows = solver.halfSpaces.map HalfSpace.rows := by
    rw [given, List.map_map]
    rfl
  have lower : Checked.oneLess direction.2.toList.length = .ok solver.n := by
    rw [along, Checked.length_vec]
    rfl
  refine Checked.Run.Agrees.check' lower ?_
  rw [rows, along]
  exact Checked.runValid_agrees solver.n solver.halfSpaces solver.direction finite

/-- Over any scalars the checked run gives an outcome, so no check failed, and the solver's run reports that
outcome. -/
theorem first_run_safe :
    (∀ {α : Type} [Scalar α] (halfSpaces : List (AnyHalfSpace α)) (direction : AnyVec α)
      (solver : Solver α), ofProblem halfSpaces direction = .ok solver →
      ∀ (tol : Tolerance α) (source : σ), ∃ outcome after,
        Checked.firstRun tol (halfSpaces.map AnyHalfSpace.rows) direction.2.toList source =
            .ok (outcome, after) ∧
          (∀ solution p, outcome = .ok solution → solution.point? = some p → p.length = solver.dim) ∧
          (∀ e, outcome = .error e → e = .geometry .degenerateNormal ∨ e = .nonFiniteDirection) ∧
          ((solver.withTolerance tol).run source).1 = outcome.map Checked.SolutionRows.kind ∧
          ((solver.withTolerance tol).run source).2.1.resultPoint?.map Point.toList =
            outcome.toOption.bind Checked.SolutionRows.point? ∧
          ((solver.withTolerance tol).run source).2.2 = after) ∧
    ∀ {α : Type} [ExactScalar α] (halfSpaces : List (AnyHalfSpace α)) (direction : AnyVec α)
      (solver : Solver α), ofProblem halfSpaces direction = .ok solver →
      ∀ (tol : Tolerance α), 0 ≤ tol.det → ∀ source : σ,
        ∃ kind, ((solver.withTolerance tol).run source).1 = .ok kind := by
  constructor
  · intro α _ halfSpaces direction solver built tol source
    obtain ⟨-, -, nonempty, -, ready⟩ := eq_of_ofProblem built
    have checked := firstRun_agrees built tol source
    rcases Level.solve_finishes (Level.allowsValues_fromValues tol) solver.n solver.halfSpaces
      solver.direction nonempty source with ⟨solution, rest, run, -⟩ | ⟨e, rest, run, values⟩
    · rw [run] at checked
      rw [run_eq_of_ok ready run]
      refine ⟨.ok solution.rows, rest, checked, ?_, by simp, ?_, ?_, rfl⟩
      · intro _ p same reported
        cases same
        rw [Solution.point?_rows] at reported
        obtain ⟨typed, -, rfl⟩ := Option.map_eq_some_iff.mp reported
        exact Checked.length_point typed
      · simp [Except.map]
      · simp [resultPoint?, solution?, Except.toOption]
    · rw [run] at checked
      rw [run_eq_of_error ready run]
      refine ⟨.error e, rest, checked, by simp, ?_, rfl, rfl, rfl⟩
      intro _ same
      cases same
      exact values
  · intro α _ halfSpaces direction solver built tol det source
    obtain ⟨-, -, nonempty, -, ready⟩ := eq_of_ofProblem built
    have finishes : (Level.solve tol solver.n solver.halfSpaces solver.direction : Run σ _).Ensures _ :=
      (Level.solve_finishes (Level.allowsValues_exact det) solver.n _ _ nonempty).ensures
    obtain ⟨solution, rest, run, -⟩ := finishes source
    exact ⟨solution.kind, by rw [run_eq_of_ok ready run]⟩

theorem first_run_quadrant_safe :
    ∃ solver : Solver ℝ, ofProblem (quadrant.map (Sigma.mk 2)) ⟨2, ⟨#v[-1, -1]⟩⟩ = .ok solver ∧
      (∃ outcome after, Checked.firstRun Tolerance.exact ((quadrant.map (Sigma.mk 2)).map AnyHalfSpace.rows)
          [-1, -1] (⟨[]⟩ : ListedWords) = .ok (outcome, after) ∧
        (∀ solution p, outcome = .ok solution → solution.point? = some p → p.length = 2) ∧
        ((solver.withTolerance Tolerance.exact).run (⟨[]⟩ : ListedWords)).1 =
          outcome.map Checked.SolutionRows.kind) ∧
      0 ≤ (Tolerance.exact : Tolerance ℝ).det ∧
      ∃ kind, ((solver.withTolerance Tolerance.exact).run (⟨[]⟩ : ListedWords)).1 = .ok kind := by
  have built : ofProblem (quadrant.map (Sigma.mk 2)) ⟨2, ⟨#v[-1, -1]⟩⟩ =
      .ok ⟨1, quadrant, ⟨#v[-1, -1]⟩, Tolerance.standard, .ready⟩ :=
    ofProblem_map (by simp [quadrant]) ⟨#v[-1, -1]⟩
  have det : 0 ≤ (Tolerance.exact : Tolerance ℝ).det := Tolerance.exact_det.ge
  refine ⟨_, built, ?_, det, first_run_safe.2 _ _ _ built _ det _⟩
  obtain ⟨outcome, after, checked, coordinates, -, kind, -⟩ :=
    first_run_safe.1 _ _ _ built Tolerance.exact (⟨[]⟩ : ListedWords)
  exact ⟨outcome, after, checked, coordinates, kind⟩

end Solver

end LowDimLP
