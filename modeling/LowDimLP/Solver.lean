import LowDimLP.Solver.Level
/-!
# Solvers

A solver holds a linear program, minimize `direction·x` over the intersection of its half-spaces, and
runs once. Until a run succeeds it has no result; a run that fails leaves none, and a second run is
refused without a draw.
-/

namespace LowDimLP

/-- Where a solver stands. -/
inductive Status (α : Type) (n : Nat) where
  | ready
  | failed
  | finished (solution : Solution α n)

/-- A linear program of R^(n+1), with its tolerances and the state of its run. -/
structure Solver (α : Type) where
  n : Nat
  halfSpaces : List (HalfSpace α (n + 1))
  direction : Vec α (n + 1)
  tolerance : Tolerance α
  status : Status α (n + 1)

namespace Solver

variable {α : Type} [Scalar α]

/-- The half-spaces as ones of dimension `dim`; the first of another dimension, counted from `index`, is
an error. -/
def checkDimensions (dim : Nat) : Nat → List (AnyHalfSpace α) →
    Except SolverError (List (HalfSpace α dim))
  | _, [] => .ok []
  | index, h :: hs =>
    match h.ofDim? dim with
    | some h => (checkDimensions dim (index + 1) hs).map (h :: ·)
    | none => .error (.dimensionMismatch index dim h.1)

/-- A solver for the given half-spaces and direction. There must be a half-space, the direction must be
finite, and all dimensions must be the direction's; the first failure in this order is reported. -/
def ofProblem (halfSpaces : List (AnyHalfSpace α)) : AnyVec α → Except SolverError (Solver α)
  | ⟨dim, direction⟩ =>
    if halfSpaces.isEmpty then .error .emptyConstraintSet
    else if !direction.isFinite then .error .nonFiniteDirection
    else
      match dim, direction with
      | 0, _ => .error (.geometry (.unsupportedDimension .vector 0))
      | n + 1, direction => do
        let halfSpaces ← checkDimensions (n + 1) 0 halfSpaces
        return ⟨n, halfSpaces, direction, Tolerance.standard, .ready⟩

/-- The dimension of the program. -/
def dim (solver : Solver α) : Nat := solver.n + 1

/-- The solver with other tolerances. -/
def withTolerance (solver : Solver α) (tol : Tolerance α) : Solver α := { solver with tolerance := tol }

/-- The result of the run; none before it and after a failure. -/
def solution? (solver : Solver α) : Option (Solution α (solver.n + 1)) :=
  match solver.status with
  | .finished solution => some solution
  | _ => none

/-- The kind of the result. -/
def resultKind? (solver : Solver α) : Option ResultKind := solver.solution?.map Solution.kind

/-- The point of the result. -/
def resultPoint? (solver : Solver α) : Option (Point α (solver.n + 1)) :=
  solver.solution?.bind Solution.point?

variable {σ : Type} [PickSource σ]

/-- Runs the solver; gives the kind of the result or the error, the solver after the run, and the source
after its draws. -/
def run (solver : Solver α) (source : σ) : Except SolverError ResultKind × Solver α × σ :=
  match solver.status with
  | .ready =>
    match Level.solve solver.tolerance solver.n solver.halfSpaces solver.direction source with
    | (.ok solution, source) => (.ok solution.kind, { solver with status := .finished solution }, source)
    | (.error e, source) => (.error e, { solver with status := .failed }, source)
  | _ => (.error .alreadyRun, solver, source)

end Solver

/-- Builds a solver, runs it and gives its solution. -/
def solve {σ α : Type} [PickSource σ] [Scalar α] (halfSpaces : List (AnyHalfSpace α))
    (direction : AnyVec α) (tol : Tolerance α) : Run σ (AnySolution α) := fun source =>
  match Solver.ofProblem halfSpaces direction with
  | .error e => (.error e, source)
  | .ok solver =>
    match (solver.withTolerance tol).run source with
    | (.error e, _, source) => (.error e, source)
    | (.ok _, solver, source) =>
      match solver.solution? with
      | some solution => (.ok ⟨solver.dim, solution⟩, source)
      | none => (.error .emptyConstraintSet, source)

end LowDimLP
