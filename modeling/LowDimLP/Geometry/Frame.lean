import LowDimLP.Geometry.Plane
import LowDimLP.Geometry.Tolerance
/-!
# Frames

A frame charts a plane of R^(n+1) as R^n: the coordinate with the largest normal component is dropped
and the others are kept in order. `lift` is the inverse chart: it puts the dropped coordinate back so
that the result lies on the plane. Functionals, points and planes are carried to the chart by the same
frame.
-/

namespace LowDimLP

universe u

/-- A plane of R^(n+1) and the axis along which R^n is laid onto it. -/
structure Frame (α : Type u) (n : Nat) where
  plane : Plane α (n + 1)
  axis : Fin (n + 1)

namespace Frame

variable {α : Type u} [Scalar α] {m n : Nat}

/-- The frame on a plane, along the axis of its largest normal component. -/
def on (plane : Plane α (n + 1)) : Frame α n := ⟨plane, Coords.argMaxAbs plane.normal.coords⟩

/-- The frame on a plane of unknown dimension, which must be at least two. -/
def ofPlane : {m : Nat} → Plane α m → Except GeometryError ((n : Nat) × Frame α n)
  | n + 2, plane => .ok ⟨n + 1, on plane⟩
  | m, _ => .error (.unsupportedDimension .dimensionReduction m)

/-- The frame's normal component along its axis; all divisions are by it. -/
def pivot (frame : Frame α n) : α := frame.plane.normal.coords[frame.axis]

/-- Unit vector along the dropped axis. -/
def sweep (frame : Frame α n) : Vec α (n + 1) := Vec.axis frame.axis

/-- How much of the frame's normal cancels the axis coordinate of `v`. -/
def ratio (frame : Frame α n) (v : Vec α m) : α := v.coord frame.axis / frame.pivot

/-- The functional `v` on the frame's plane, in chart coordinates and up to a constant:
`v·lift y = pullBack v·y + ratio v·D`. -/
def pullBack (frame : Frame α n) (v : Vec α m) : Vec α n :=
  let r := frame.ratio v
  let full := Vector.ofFn fun i : Fin (n + 1) => v.coord i - r * frame.plane.normal.coords.get i
  ⟨full.eraseIdx frame.axis frame.axis.isLt⟩

/-- The point of the plane with the given chart coordinates. -/
def lift (frame : Frame α n) (q : Point α n) : Point α (n + 1) :=
  let flat := q.coords.insertIdx frame.axis 0 (Nat.le_of_lt_succ frame.axis.isLt)
  let height := (frame.plane.offset - Coords.inner frame.plane.normal.coords flat) / frame.pivot
  ⟨flat.set frame.axis height frame.axis.isLt⟩

/-- Same plane and axis. -/
def same (f : Frame α m) (g : Frame α n) : Bool :=
  f.plane.same g.plane && decide (f.axis.val = g.axis.val)

end Frame

namespace Vec

variable {α : Type u} [Scalar α] {m n : Nat}

/-- The functional `v` along the frame's plane. -/
def reduce (v : Vec α m) (frame : Frame α n) : Vec α n := frame.pullBack v

end Vec

namespace Point

variable {α : Type u} [Scalar α] {m n : Nat}

/-- The point without coordinate `k`, or without its last one if it has no coordinate `k`. -/
def dropCoord (p : Point α m) (k : Nat) : Point α (m - 1) :=
  if h : k < m then ⟨p.coords.eraseIdx k h⟩ else ⟨p.coords.pop⟩

/-- Slides the point along the frame's axis onto the plane and gives the chart coordinates it hits;
`none` when the axis runs along the plane. -/
def reduce (p : Point α m) (frame : Frame α n) (tol : Tolerance α) : Option (Point α (m - 1)) :=
  let rate := frame.plane.normal.dot frame.sweep
  if Scalar.abs rate ≤ tol.det then none
  else
    let t := -frame.plane.signedDistance p / rate
    some ((p.translate (frame.sweep.scaled t)).dropCoord frame.axis)

end Point

namespace Plane

variable {α : Type u} [Scalar α] {n : Nat}

/-- The trace of a plane on the frame's plane, in chart coordinates; `none` when they are parallel. -/
def reduce (plane : Plane α (n + 1)) (frame : Frame α n) (tol : Tolerance α) : Option (Plane α n) :=
  let normal := frame.pullBack plane.normal
  if normal.isZero tol.det then none
  else
    (Plane.ofEquation normal (plane.offset - frame.ratio plane.normal * frame.plane.offset)).toOption

end Plane

end LowDimLP
