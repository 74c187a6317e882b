import LowDimLP.Geometry.HalfSpace
/-!
# Problems

A set of half-spaces and the direction to minimize along. Dimensions need not agree yet; a solver checks
them.
-/

namespace LowDimLP

universe u

/-- A constraint set with its objective direction. -/
structure Problem (α : Type u) where
  halfSpaces : List (AnyHalfSpace α)
  direction : AnyVec α

/-- The half-space with the listed normal coordinates; the list must not be empty and the inequality not
degenerate. -/
def AnyHalfSpace.ofInequality {α : Type u} [Scalar α] (normal : List α) (offset : α) :
    Except GeometryError (AnyHalfSpace α) := do
  let v ← Vec.ofList normal
  let h ← HalfSpace.ofInequality v.2 offset
  return ⟨v.1, h⟩

end LowDimLP
