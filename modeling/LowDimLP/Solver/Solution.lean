import LowDimLP.Geometry.HalfSpace
/-!
# Solutions

What a run reports: an optimum, a feasible point of a problem whose objective was never bounded, or
that no point satisfies every half-space.
-/

namespace LowDimLP

universe u

/-- The outcome of a run. -/
inductive Solution (α : Type u) (n : Nat) where
  /-- An optimum. -/
  | minimum (p : Point α n)
  /-- A feasible point; the objective was never bounded. -/
  | ambiguous (p : Point α n)
  /-- No point satisfies every half-space. -/
  | infeasible

/-- The outcome of a run without its point. -/
inductive ResultKind where
  | minimum
  | ambiguous
  | infeasible
  deriving DecidableEq, Repr

/-- The word for an outcome in reports. -/
def ResultKind.name : ResultKind → String
  | .minimum => "minimum"
  | .ambiguous => "ambiguous"
  | .infeasible => "infeasible"

/-- A solution in some dimension. -/
abbrev AnySolution (α : Type u) := (n : Nat) × Solution α n

namespace Solution

variable {α : Type u} {n : Nat}

def kind : Solution α n → ResultKind
  | minimum _ => .minimum
  | ambiguous _ => .ambiguous
  | infeasible => .infeasible

/-- The reported point, if there is one. -/
def point? : Solution α n → Option (Point α n)
  | minimum p => some p
  | ambiguous p => some p
  | infeasible => none

/-- Does the solution say that nothing is feasible? -/
def isInfeasible : Solution α n → Bool
  | infeasible => true
  | _ => false

end Solution

end LowDimLP
