import LowDimLP.Json.Value
import LowDimLP.Problem
import LowDimLP.Random.ChaCha
import LowDimLP.Solver
/-!
# Reports

What is told of a solve: the kind of its result, the point with its objective value if there is one, and the
seed of the stream that its picks were drawn from.
-/

namespace LowDimLP

/-- The account of a solve. -/
structure Report (α : Type) where
  result : ResultKind
  point : Option (List α)
  objective : Option α
  seed : UInt64
  deriving DecidableEq, Repr

namespace Report

variable {α : Type} [Scalar α]

/-- The account of a solution. -/
def ofSolution (direction : AnyVec α) (seed : UInt64) (solution : AnySolution α) : Report α where
  result := solution.2.kind
  point := solution.2.point?.map Point.toList
  objective := solution.2.point?.map direction.2.eval
  seed := seed

/-- Solves a problem with the picks of a seed. -/
def ofProblem (problem : Problem α) (tol : Tolerance α) (seed : UInt64) : Except SolverError (Report α) :=
  (solve problem.halfSpaces problem.direction tol (ChaCha.ofSeed seed)).1.map
    (ofSolution problem.direction seed)

/-- The document of a report. -/
def toJson [NumberText α] (report : Report α) : Json :=
  Json.record [("result", Json.ofString report.result.name),
    ("point", Json.ofOption Json.ofScalars report.point),
    ("objective", Json.ofOption Json.ofScalar report.objective),
    ("seed", Json.ofNat report.seed.toNat)]

end Report

end LowDimLP
