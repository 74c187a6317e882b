import LowDimLP.Geometry.HalfSpace
/-!
# Intersections of planes

The common point of `n` planes of R^n in general position, found by reducing all others onto the first
and lifting the common point of the reductions. The second half handles planes whose dimensions are
known only when the program runs.
-/

namespace LowDimLP

universe u

namespace Plane

variable {α : Type u} [Scalar α] {m n : Nat}

/-- The common point of exactly `n` planes of R^n; `none` if their number or position does not fix one. -/
def meet (tol : Tolerance α) : {n : Nat} → List (Plane α n) → Option (Point α n)
  | 0, _ => none
  | _ + 1, [] => none
  | 0 + 1, first :: rest => if rest.isEmpty then some first.point else none
  | n + 2, first :: rest =>
    if rest.length = n + 1 then do
      let frame := Frame.on first
      let reduced ← rest.mapM fun plane => plane.reduce frame tol
      let q ← meet tol reduced
      return frame.lift q
    else none

/-- What two planes have in common: on a line a point, above it a plane in the chart of the first. -/
inductive Intersection (α : Type u) where
  | point (p : AnyPoint α)
  | plane (p : AnyPlane α)

/-- The intersection of two planes of one dimension; `none` when they are apart or parallel. -/
def intersect (tol : Tolerance α) : {m n : Nat} → Plane α m → Plane α n →
    Except GeometryError (Option (Intersection α))
  | m, n, p, q =>
    if h : n = m then
      match m, p, (h ▸ q : Plane α m) with
      | 1, p, q =>
        if Scalar.abs (p.point.coord 0 - q.point.coord 0) ≤ tol.feas then .ok (some (.point ⟨1, p.point⟩))
        else .ok none
      | k + 2, p, q => .ok ((q.reduce (Frame.on p) tol).map fun r => .plane ⟨k + 1, r⟩)
      | 0, _, _ => .error (.unsupportedDimension .dimensionReduction 0)
    else .error (.dimensionMismatch m n)

end Plane

namespace AnyPlane

variable {α : Type u} [Scalar α]

/-- The plane as one of dimension `n`, if it is one. -/
def ofDim? (n : Nat) (plane : AnyPlane α) : Option (Plane α n) :=
  if h : plane.1 = n then some (h ▸ plane.2) else none

/-- The common point of planes of any dimensions; those that differ have none. -/
def meet (tol : Tolerance α) : List (AnyPlane α) → Option (AnyPoint α)
  | [] => none
  | first :: rest => do
    let planes ← (first :: rest).mapM (ofDim? first.1)
    let p ← Plane.meet tol planes
    return ⟨first.1, p⟩

/-- The trace on the plane of a frame one dimension below. -/
def reduce {n : Nat} (plane : AnyPlane α) (frame : Frame α n) (tol : Tolerance α) :
    Option (Plane α n) := do
  (← ofDim? (n + 1) plane).reduce frame tol

end AnyPlane

/-- The half-space as one of dimension `n`, if it is one. -/
def AnyHalfSpace.ofDim? {α : Type u} (n : Nat) (h : AnyHalfSpace α) : Option (HalfSpace α n) :=
  if e : h.1 = n then some (e ▸ h.2) else none

/-- The point as one of dimension `n`, if it is one. -/
def AnyPoint.ofDim? {α : Type u} (n : Nat) (p : AnyPoint α) : Option (Point α n) :=
  if e : p.1 = n then some (e ▸ p.2) else none

end LowDimLP
