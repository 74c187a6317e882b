import LowDimLP.Geometry.Vec
/-!
# Hyperplanes

A plane is `{x : N·x = D}` with a unit normal `N`, and carries its representative point `D·N`, the one
closest to the origin. The equation it is built from is rescaled, and refused when the normal has no
positive finite length or the offset is not finite.
-/

namespace LowDimLP

universe u

/-- Oriented hyperplane `normal·x = offset` of R^n. -/
structure Plane (α : Type u) (n : Nat) where
  normal : Vec α n
  offset : α
  point : Point α n

/-- A plane of some dimension. -/
abbrev AnyPlane (α : Type u) := (n : Nat) × Plane α n

namespace Plane

variable {α : Type u} [Scalar α] {m n : Nat}

/-- The plane `normal·x = offset`, rescaled to a unit normal. -/
def ofEquation (normal : Vec α n) (offset : α) : Except GeometryError (Plane α n) :=
  let length := normal.length
  if !Scalar.isFinite length || decide (length ≤ 0) || !Scalar.isFinite offset then
    .error .degenerateNormal
  else
    let unit := normal.scaled (1 / length)
    let distance := offset / length
    .ok ⟨unit, distance, ⟨unit.coords.map (· * distance)⟩⟩

/-- `N·p - D`, positive on the side the normal points to. -/
def signedDistance (plane : Plane α m) (p : Point α n) : α := plane.normal.eval p - plane.offset

/-- The parallel plane through the origin. -/
def throughOrigin (plane : Plane α n) : Plane α n := ⟨plane.normal, 0, Point.origin⟩

/-- Same dimension, normal, offset and representative point. -/
def same (p : Plane α m) (q : Plane α n) : Bool :=
  p.normal.same q.normal && Scalar.same p.offset q.offset && p.point.same q.point

end Plane

end LowDimLP
