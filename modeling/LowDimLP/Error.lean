/-!
# Errors

Why a geometric object cannot be built and why a solver cannot run. Parallel planes, a bound that
vanishes in a reduction and an empty feasible region are answers, not errors. Each kind of error has
one text, given by `message`.
-/

namespace LowDimLP

/-- Operations that exist in some dimensions only. -/
inductive Operation where
  | vector
  | point
  | crossProduct
  | dimensionReduction
  deriving DecidableEq, Repr

/-- The operation's name in messages. -/
def Operation.name : Operation → String
  | .vector => "vector"
  | .point => "point"
  | .crossProduct => "cross product"
  | .dimensionReduction => "dimension reduction"

/-- Failures of the geometric primitives. -/
inductive GeometryError where
  /-- Two operands that must have one dimension have two. -/
  | dimensionMismatch (left right : Nat)
  /-- The operation does not exist in this dimension. -/
  | unsupportedDimension (operation : Operation) (dim : Nat)
  /-- A plane was given a normal without a positive finite length, or an offset that is not finite. -/
  | degenerateNormal
  deriving DecidableEq, Repr

def GeometryError.message : GeometryError → String
  | .dimensionMismatch left right => "dimension mismatch: " ++ toString left ++ " vs " ++ toString right
  | .unsupportedDimension operation dim =>
    operation.name ++ " is not supported in dimension " ++ toString dim
  | .degenerateNormal => "normal vector is zero or coefficients are not finite"

/-- Failures of building and running a solver. -/
inductive SolverError where
  /-- Constraint `index` has dimension `found`, the direction has `expected`. -/
  | dimensionMismatch (index expected found : Nat)
  | nonFiniteDirection
  | emptyConstraintSet
  | alreadyRun
  | geometry (cause : GeometryError)
  deriving DecidableEq, Repr

def SolverError.message : SolverError → String
  | .dimensionMismatch index expected found =>
    "half-space " ++ toString index ++ " has dimension " ++ toString found ++ ", direction has " ++
      toString expected
  | .nonFiniteDirection => "direction has a non-finite coefficient"
  | .emptyConstraintSet => "constraint set is empty"
  | .alreadyRun => "solver has already been run"
  | .geometry cause => cause.message

end LowDimLP
