import LowDimLP.Geometry.HalfSpace
import LowDimLP.Proofs.Checked.Row
/-!
# Checked geometry

Planes, frames and half-spaces as the program stores them, and their reductions with every index and every
asserted dimension checked. A half-space is stored as its boundary. The `rows` of a typed object forget its
dimension; on rows of matching dimensions no check fails, and each operation gives the rows of what the typed
operation gives.
-/

namespace LowDimLP

namespace Checked

/-- A hyperplane, or the half-space behind it. -/
structure PlaneRows (α : Type) where
  normal : List α
  offset : α
  point : List α

/-- A plane and the coordinate that its chart drops. -/
structure FrameRows (α : Type) where
  plane : PlaneRows α
  axis : Nat

/-- What a half-space leaves of a frame's plane. -/
inductive TraceRows (α : Type) where
  | bound (h : PlaneRows α)
  | free
  | empty

variable {α : Type} [Scalar α]

namespace PlaneRows

def dim (plane : PlaneRows α) : Nat := plane.normal.length

/-- The plane of an equation, rescaled to a unit normal. -/
def ofEquation (normal : List α) (offset : α) : Except Fault (Except GeometryError (PlaneRows α)) := do
  let length ← norm normal
  if !Scalar.isFinite length || decide (length ≤ 0) || !Scalar.isFinite offset then
    return .error .degenerateNormal
  else
    let unit := normal.map (· * (1 / length))
    let distance := offset / length
    return .ok ⟨unit, distance, unit.map (· * distance)⟩

def signedDistance (plane : PlaneRows α) (p : List α) : α := eval plane.normal p - plane.offset

def throughOrigin (plane : PlaneRows α) : PlaneRows α :=
  ⟨plane.normal, 0, List.replicate plane.dim 0⟩

def containsWithin (h : PlaneRows α) (p : List α) (eps : α) : Bool :=
  decide (h.signedDistance p ≤ eps)

end PlaneRows

namespace FrameRows

/-- The frame on a plane; a line has none. -/
def on (plane : PlaneRows α) : Except Fault (Except GeometryError (FrameRows α)) := do
  if plane.dim < 2 then return .error (.unsupportedDimension .dimensionReduction plane.dim)
  else return .ok ⟨plane, ← argMaxAbs plane.normal⟩

/-- A functional in the chart, and how much of the frame's normal went out of it. -/
def pullBack (frame : FrameRows α) (v : List α) : Except Fault (List α × α) := do
  let ratio := coord v frame.axis / (← entry frame.plane.normal frame.axis)
  let full ← (List.range frame.plane.dim).mapM fun i => do
    return coord v i - ratio * (← entry frame.plane.normal i)
  return (← removeAt full frame.axis, ratio)

/-- The point of the plane over a point of the chart, which must have one coordinate less. -/
def lift (frame : FrameRows α) (q : List α) : Except Fault (List α) := do
  assertSame (q.length + 1) frame.plane.dim
  let flat ← insertAt q frame.axis 0
  let height := frame.plane.offset - (← inner frame.plane.normal flat)
  setAt flat frame.axis (height / (← entry frame.plane.normal frame.axis))

end FrameRows

/-- The trace of a plane on a frame's plane of the same dimension; none when they are parallel. -/
def PlaneRows.reduce (plane : PlaneRows α) (frame : FrameRows α) (tol : Tolerance α) :
    Except Fault (Option (PlaneRows α)) := do
  assertSame plane.dim frame.plane.dim
  let (normal, ratio) ← frame.pullBack plane.normal
  if (← norm normal) ≤ tol.det then return none
  else return (← PlaneRows.ofEquation normal (plane.offset - ratio * frame.plane.offset)).toOption

/-- A half-space on a frame's plane. -/
def PlaneRows.trace (h : PlaneRows α) (frame : FrameRows α) (tol : Tolerance α) :
    Except Fault (TraceRows α) := do
  match ← h.reduce frame tol with
  | some bound => return .bound bound
  | none => return if h.containsWithin frame.plane.point tol.feas then .free else .empty

/-- What half-spaces leave of a frame's plane; none as soon as one excludes it. -/
def FrameRows.traces (frame : FrameRows α) (tol : Tolerance α) :
    List (PlaneRows α) → Except Fault (Option (List (PlaneRows α)))
  | [] => return some []
  | h :: hs => do
    match ← h.trace frame tol with
    | .bound r => return (← frame.traces tol hs).map (r :: ·)
    | .free => frame.traces tol hs
    | .empty => return none

end Checked

variable {α : Type} {m n : Nat}

/-- The rows of a plane. -/
def Plane.rows (plane : Plane α n) : Checked.PlaneRows α :=
  ⟨plane.normal.toList, plane.offset, plane.point.toList⟩

/-- The rows of a half-space are those of its boundary. -/
def HalfSpace.rows (h : HalfSpace α n) : Checked.PlaneRows α := h.boundary.rows

/-- The rows of a frame. -/
def Frame.rows (frame : Frame α n) : Checked.FrameRows α := ⟨frame.plane.rows, frame.axis⟩

def Trace.rows : Trace α n → Checked.TraceRows α
  | .bound h => .bound h.rows
  | .free => .free
  | .empty => .empty

@[simp] theorem Plane.rows_normal (plane : Plane α n) : plane.rows.normal = plane.normal.toList := rfl

@[simp] theorem Plane.rows_offset (plane : Plane α n) : plane.rows.offset = plane.offset := rfl

@[simp] theorem Plane.rows_point (plane : Plane α n) : plane.rows.point = plane.point.toList := rfl

@[simp] theorem Plane.dim_rows (plane : Plane α n) : plane.rows.dim = n := Checked.length_vec plane.normal

@[simp] theorem Frame.rows_plane (frame : Frame α n) : frame.rows.plane = frame.plane.rows := rfl

@[simp] theorem Frame.rows_axis (frame : Frame α n) : frame.rows.axis = frame.axis := rfl

namespace Checked

theorem entry_axis (frame : Frame α n) : entry frame.plane.normal.toList frame.axis = .ok frame.pivot :=
  entry_toList frame.plane.normal.coords frame.axis

variable [Scalar α]

theorem ofEquation_toList (normal : Vec α n) (offset : α) :
    PlaneRows.ofEquation normal.toList offset =
      .ok ((Plane.ofEquation normal offset).map Plane.rows) := by
  rw [PlaneRows.ofEquation, norm_toList, ok_bind, Plane.ofEquation]
  split
  · rfl
  · simp [Except.map, Plane.rows, Vec.toList, Point.toList, Vec.scaled, Vector.toList_map]

theorem containsWithin_rows (h : HalfSpace α m) (p : Point α n) (eps : α) :
    h.rows.containsWithin p.toList eps = h.containsWithin p eps :=
  congrArg (fun value => decide (value - h.boundary.offset ≤ eps)) (eval_toList h.boundary.normal p)

theorem throughOrigin_rows (plane : Plane α n) :
    plane.rows.throughOrigin = plane.throughOrigin.rows := by
  simp [PlaneRows.throughOrigin, Plane.rows, Plane.throughOrigin, Point.origin, Point.toList,
    PlaneRows.dim]

theorem on_rows (plane : Plane α (n + 2)) :
    FrameRows.on plane.rows = .ok (.ok (Frame.on plane).rows) := by
  have axis : argMaxAbs plane.normal.toList = .ok (Frame.on plane).axis.val := argMaxAbs_toList _
  rw [FrameRows.on, Plane.dim_rows, if_neg (by omega), Plane.rows_normal, axis]
  rfl

theorem pullBack_rows (frame : Frame α n) (v : Vec α m) :
    frame.rows.pullBack v.toList = .ok ((frame.pullBack v).toList, frame.ratio v) := by
  have ratio : v.coord frame.axis / frame.pivot = frame.ratio v := rfl
  -- The loop asks for every entry of the normal by its position, below the frame's dimension.
  have full : (List.range (n + 1)).mapM (fun i => do
      return v.coord i - frame.ratio v * (← entry frame.plane.normal.toList i)) =
      .ok (Vector.ofFn fun i : Fin (n + 1) =>
        v.coord i - frame.ratio v * frame.plane.normal.coords.get i).toList := by
    rw [← List.map_coe_finRange_eq_range, Vector.toList_ofFn, List.ofFn_eq_map]
    refine mapM_map_eq_pure Fin.val fun i _ => ?_
    have stored : entry frame.plane.normal.toList i = _ := entry_toList frame.plane.normal.coords i
    rw [stored, ok_bind, pure_eq_ok]
  have cut := removeAt_toList (Vector.ofFn fun i : Fin (n + 1) =>
    v.coord i - frame.ratio v * frame.plane.normal.coords.get i) frame.axis
  simp only [FrameRows.pullBack, Frame.rows_plane, Frame.rows_axis, Plane.rows_normal, Plane.dim_rows,
    coord_vec, entry_axis, ok_bind, ratio, full, cut]
  rfl

theorem lift_rows (frame : Frame α n) (q : Point α n) :
    frame.rows.lift q.toList = .ok (frame.lift q).toList := by
  have flat : insertAt q.toList frame.axis 0 = _ := insertAt_toList q.coords frame.axis 0
  have heights : ∀ v : Vector α (n + 1), inner frame.plane.normal.toList v.toList = _ :=
    inner_toList frame.plane.normal.coords
  simp only [FrameRows.lift, length_point, Frame.rows_plane, Frame.rows_axis, Plane.dim_rows,
    Plane.rows_normal, Plane.rows_offset, assertSame_self, ok_bind, flat, heights, entry_axis,
    setAt_toList]
  rfl

theorem reduce_rows (plane : Plane α (n + 1)) (frame : Frame α n) (tol : Tolerance α) :
    plane.rows.reduce frame.rows tol = .ok ((plane.reduce frame tol).map Plane.rows) := by
  simp only [PlaneRows.reduce, Frame.rows_plane, Plane.dim_rows, Plane.rows_normal, Plane.rows_offset,
    assertSame_self, ok_bind, pullBack_rows, norm_toList, ofEquation_toList, Plane.reduce, Vec.isZero,
    decide_eq_true_eq]
  split
  · rfl
  · rw [pure_eq_ok]
    cases Plane.ofEquation (frame.pullBack plane.normal)
      (plane.offset - frame.ratio plane.normal * frame.plane.offset) <;> rfl

theorem trace_rows (h : HalfSpace α (n + 1)) (frame : Frame α n) (tol : Tolerance α) :
    h.rows.trace frame.rows tol = .ok (h.reduce frame tol).rows := by
  have inside : h.boundary.rows.containsWithin frame.plane.point.toList tol.feas = _ :=
    containsWithin_rows h frame.plane.point tol.feas
  rw [PlaneRows.trace, HalfSpace.rows, reduce_rows, ok_bind, HalfSpace.reduce]
  cases h.boundary.reduce frame tol with
  | some bound => rfl
  | none =>
    simp only [Option.map_none, Frame.rows_plane, Plane.rows_point, inside, pure_eq_ok]
    split <;> rfl

theorem traces_rows (frame : Frame α n) (tol : Tolerance α) (halfSpaces : List (HalfSpace α (n + 1))) :
    frame.rows.traces tol (halfSpaces.map HalfSpace.rows) =
      .ok ((frame.traces tol halfSpaces).map (List.map HalfSpace.rows)) := by
  induction halfSpaces with
  | nil => rfl
  | cons h hs ih =>
    rw [List.map_cons, FrameRows.traces, trace_rows, ok_bind, Frame.traces]
    cases h.reduce frame tol with
    | bound r =>
      simp only [Trace.rows, ih, ok_bind]
      cases frame.traces tol hs <;> rfl
    | free => exact ih
    | empty => rfl

end Checked

end LowDimLP
