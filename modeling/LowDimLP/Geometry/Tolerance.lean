import LowDimLP.Scalar
/-!
# Tolerances

Normals are stored with unit length, so the slack `feas` is a distance. `det` decides when a normal, a
reduced normal or a reduced direction counts as zero.
-/

namespace LowDimLP

universe u

/-- The two thresholds every level of a solve shares. -/
structure Tolerance (α : Type u) where
  det : α
  feas : α

/-- The thresholds used when none are given. -/
def Tolerance.standard {α : Type u} [Scalar α] : Tolerance α where
  det := 1e-10
  feas := 1e-9

end LowDimLP
