import LowDimLP.Proofs.Geometry.Linear
import LowDimLP.Geometry.Frame
/-!
# The chart of a frame

In exact arithmetic the chart is a bijection between R^n and the frame's plane in R^(n+1): `lift` lands
on the plane and reaches all of it, and to drop the axis coordinate undoes it (`dropCoord_lift`,
`lift_dropCoord`). A functional on the lifted point is its pull-back on the chart point and a constant
(`eval_lift`), so whatever is linear may be decided in the chart. All of it needs one thing of the frame:
that its pivot, by which it divides, is not zero.
-/

namespace LowDimLP

universe u

variable {α : Type u} {m n : Nat}

namespace Coords

/-- The value of a position beside `k`, by the side on which it lies. -/
theorem val_succAbove (k : Fin (n + 1)) (j : Fin n) :
    (k.succAbove j).val = if j.val < k.val then j.val else j.val + 1 := by
  simp only [Fin.succAbove, Fin.lt_def, Fin.val_castSucc]
  split <;> rfl

theorem getElem_eraseIdx_fin (v : Vector α (n + 1)) (k : Fin (n + 1)) (j : Fin n) :
    (v.eraseIdx k k.isLt : Vector α n)[j] = v[k.succAbove j] := by
  refine (Vector.getElem_eraseIdx k.isLt j.isLt).trans ?_
  simp only [Fin.getElem_fin, val_succAbove]
  split <;> rfl

theorem get_insertIdx_fin (v : Vector α n) (x : α) (k : Fin (n + 1)) (j : Fin n) :
    (v.insertIdx k x (Nat.le_of_lt_succ k.isLt)).get (k.succAbove j) = v.get j := by
  show (v.insertIdx k x (Nat.le_of_lt_succ k.isLt))[(k.succAbove j).val] = v[j.val]
  simp only [val_succAbove, Vector.getElem_insertIdx]
  split
  · next below => simp
  · next above => simp [show ¬ j.val + 1 < k.val by omega, show j.val + 1 ≠ k.val by omega]

end Coords

variable [ExactScalar α]

/-- The coordinates that stay keep their order. -/
theorem Point.coord_dropCoord (p : Point α (n + 1)) (k : Fin (n + 1)) (j : Fin n) :
    (p.dropCoord k : Point α n).coord j = p.coord (k.succAbove j) := by
  rw [Point.dropCoord, dif_pos k.isLt, Point.coord, Point.coord, Coords.get_fin, Coords.get_fin]
  exact Coords.getElem_eraseIdx_fin p.coords k j

namespace Frame


/-- The pivot is the largest normal component, so it vanishes only with the whole normal. -/
theorem pivot_on_ne_zero {plane : Plane α (n + 1)} (h : plane.normal ≠ Vec.zero) :
    (on plane).pivot ≠ 0 := by
  intro pivot_zero
  apply h
  apply Vec.ext_coord
  intro i
  have largest := Coords.abs_le_abs_argMaxAbs plane.normal.coords i
  have zero : plane.normal.coords.get (Coords.argMaxAbs plane.normal.coords) = 0 := pivot_zero
  rw [zero, abs_zero] at largest
  rw [Vec.coord_zero, Vec.coord, Coords.get_fin]
  exact abs_nonpos_iff.mp largest

variable (frame : Frame α n)

theorem coord_normal_axis : frame.plane.normal.coord frame.axis = frame.pivot :=
  Coords.get_fin _ _

theorem coord_pullBack (v : Vec α m) (j : Fin n) :
    (frame.pullBack v).coord j = v.coord (frame.axis.succAbove j) -
      frame.ratio v * frame.plane.normal.coord (frame.axis.succAbove j) := by
  rw [Vec.coord, Coords.get_fin]
  refine (Coords.getElem_eraseIdx_fin _ frame.axis j).trans ?_
  rw [Vec.coord, Vec.coord, Coords.get_fin frame.plane.normal.coords, Fin.getElem_fin, Vector.getElem_ofFn]
  rfl

theorem coord_lift_succAbove (q : Point α n) (j : Fin n) :
    (frame.lift q).coord (frame.axis.succAbove j) = q.coord j := by
  rw [Point.coord, Coords.get_fin, Point.coord, Coords.get_fin]
  have off : frame.axis.val ≠ (frame.axis.succAbove j).val :=
    fun h => Fin.succAbove_ne frame.axis j (Fin.ext h.symm)
  simp only [lift, Fin.getElem_fin, Vector.getElem_set, off, if_false]
  exact Coords.get_insertIdx_fin q.coords 0 frame.axis j

/-- The chart point with a zero put back at the axis, as `lift` builds it before it solves for the
height, has the inner product of the remaining coordinates. -/
theorem inner_insertIdx_zero (q : Point α n) :
    Coords.inner frame.plane.normal.coords
        (q.coords.insertIdx frame.axis 0 (Nat.le_of_lt_succ frame.axis.isLt)) =
      ∑ j : Fin n, frame.plane.normal.coord (frame.axis.succAbove j) * q.coord j := by
  rw [Coords.inner_eq_sum, Fin.sum_univ_succAbove _ frame.axis]
  have at_axis : (q.coords.insertIdx frame.axis 0
      (Nat.le_of_lt_succ frame.axis.isLt))[frame.axis] = 0 := by
    simp [Vector.getElem_insertIdx]
  rw [at_axis, mul_zero, zero_add]
  refine Finset.sum_congr rfl fun j _ => ?_
  rw [Vec.coord, Coords.get_fin, Point.coord, Coords.get_fin]
  exact congrArg (_ * ·) (Coords.get_insertIdx_fin q.coords 0 frame.axis j)

theorem coord_lift_axis (q : Point α n) :
    (frame.lift q).coord frame.axis = (frame.plane.offset -
      ∑ j : Fin n, frame.plane.normal.coord (frame.axis.succAbove j) * q.coord j) / frame.pivot := by
  rw [Point.coord, Coords.get_fin, ← inner_insertIdx_zero]
  simp [lift]

variable {frame}

/-- A functional on the plane, read in the chart. -/
theorem eval_lift (pivot : frame.pivot ≠ 0) (hm : m ≤ n + 1) (v : Vec α m) (q : Point α n) :
    v.eval (frame.lift q) = (frame.pullBack v).eval q + frame.ratio v * frame.plane.offset := by
  rw [Vec.eval_eq_sum hm, Vec.eval_eq_sum le_rfl, Fin.sum_univ_succAbove _ frame.axis,
    coord_lift_axis]
  simp only [coord_lift_succAbove, coord_pullBack, sub_mul, Finset.sum_sub_distrib, mul_assoc,
    ← Finset.mul_sum, ratio]
  field_simp
  ring

theorem plane_eval_lift (pivot : frame.pivot ≠ 0) (q : Point α n) :
    frame.plane.normal.eval (frame.lift q) = frame.plane.offset := by
  rw [Vec.eval_eq_sum le_rfl, Fin.sum_univ_succAbove _ frame.axis, coord_lift_axis,
    coord_normal_axis]
  simp only [coord_lift_succAbove]
  field_simp
  ring

/-! ## The other coordinates -/

@[simp] theorem dropCoord_lift (frame : Frame α n) (q : Point α n) :
    (frame.lift q).dropCoord frame.axis = q := by
  apply Point.ext_coord
  intro j
  exact (Point.coord_dropCoord _ _ j).trans (coord_lift_succAbove frame q j)

/-- A point of the plane is the lift of its other coordinates. -/
theorem lift_dropCoord (pivot : frame.pivot ≠ 0) {x : Point α (n + 1)}
    (on_plane : frame.plane.normal.eval x = frame.plane.offset) :
    frame.lift (x.dropCoord frame.axis) = x := by
  apply Point.ext_coord
  intro i
  rcases Fin.eq_self_or_eq_succAbove frame.axis i with rfl | ⟨j, rfl⟩
  · rw [coord_lift_axis, ← on_plane, Vec.eval_eq_sum le_rfl, Fin.sum_univ_succAbove _ frame.axis,
      coord_normal_axis]
    simp only [Point.coord_dropCoord]
    field_simp
    ring
  · rw [coord_lift_succAbove]
    exact Point.coord_dropCoord x frame.axis j

theorem exists_lift_eq (pivot : frame.pivot ≠ 0) {x : Point α (n + 1)}
    (on_plane : frame.plane.normal.eval x = frame.plane.offset) : ∃ q, frame.lift q = x :=
  ⟨_, lift_dropCoord pivot on_plane⟩

end Frame

end LowDimLP
