import LowDimLP.Geometry.Frame
/-!
# Half-spaces

A closed half-space `N·x ≤ D` lies behind its boundary plane. On a frame's plane it leaves a half-space
of the chart, everything, or nothing; the last two happen when the boundaries are parallel.
-/

namespace LowDimLP

universe u

/-- Closed half-space `N·x ≤ D` of R^n, with the plane `N·x = D` as its boundary. -/
structure HalfSpace (α : Type u) (n : Nat) where
  boundary : Plane α n

/-- A half-space of some dimension. -/
abbrev AnyHalfSpace (α : Type u) := (n : Nat) × HalfSpace α n

/-- What a half-space leaves of a frame's plane. -/
inductive Trace (α : Type u) (n : Nat) where
  /-- A half-space of the chart. -/
  | bound (h : HalfSpace α n)
  /-- The whole plane: no constraint. -/
  | free
  /-- Nothing. -/
  | empty

namespace HalfSpace

variable {α : Type u} [Scalar α] {m n : Nat}

/-- The half-space `normal·x ≤ offset`. -/
def ofInequality (normal : Vec α n) (offset : α) : Except GeometryError (HalfSpace α n) :=
  (Plane.ofEquation normal offset).map HalfSpace.mk

/-- Does the point lie in the half-space, up to the distance `eps`? -/
def containsWithin (h : HalfSpace α m) (p : Point α n) (eps : α) : Bool :=
  decide (h.boundary.signedDistance p ≤ eps)

/-- Does the point lie in the half-space, up to the standard slack? -/
def contains (h : HalfSpace α m) (p : Point α n) : Bool :=
  h.containsWithin p Tolerance.standard.feas

/-- The directions that never leave the half-space: `N·d ≤ 0`. -/
def recession (h : HalfSpace α n) : HalfSpace α n := ⟨h.boundary.throughOrigin⟩

/-- The half-space restricted to the frame's plane. -/
def reduce (h : HalfSpace α (n + 1)) (frame : Frame α n) (tol : Tolerance α) : Trace α n :=
  match h.boundary.reduce frame tol with
  | some plane => .bound ⟨plane⟩
  | none => if h.containsWithin frame.plane.point tol.feas then .free else .empty

/-- Same boundary. -/
def same (g : HalfSpace α m) (h : HalfSpace α n) : Bool := g.boundary.same h.boundary

end HalfSpace

/-- What a list of half-spaces leaves of the frame's plane: the proper bounds in order, or `none` as soon
as one half-space excludes the plane. -/
def Frame.traces {α : Type u} [Scalar α] {n : Nat} (frame : Frame α n) (tol : Tolerance α) :
    List (HalfSpace α (n + 1)) → Option (List (HalfSpace α n))
  | [] => some []
  | h :: hs =>
    match h.reduce frame tol with
    | .bound r => (frame.traces tol hs).map (r :: ·)
    | .free => frame.traces tol hs
    | .empty => none

end LowDimLP
