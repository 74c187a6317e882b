import LowDimLP.Proofs.Geometry.Stretch
/-!
# Frames as they are built

A frame is built on a plane with a unit normal, of at least two dimensions, along the axis of the largest
component (`Frame.Built`). The squares of the components add up to one, so the largest of n is at least
`1 / √n` (`Frame.Built.inv_sqrt_le_pivot`), and a tolerance below that refuses no point. A point then reduces
to its other coordinates: sliding along the axis changes none of them (`Point.reduce_eq_dropCoord`). So
reducing and lifting undo each other (`Frame.chart_bijective`), and a functional compares lifted points as its
reduction compares the chart points (`Frame.reduced_functional_compares`).
-/

namespace LowDimLP

universe u

variable {α : Type u} [ExactScalar α] {n : Nat}

namespace Frame

/-- As `ofPlane` leaves a frame, of a plane as every constructor leaves one. -/
structure Built (frame : Frame α n) : Prop where
  normalised : frame.plane.Normalised
  from_plane : ofPlane frame.plane = .ok ⟨n, frame⟩

/-- Every normalised plane of at least two dimensions carries such a frame. -/
theorem built_on {plane : Plane α (n + 2)} (normalised : plane.Normalised) : (on plane).Built :=
  ⟨normalised, rfl⟩

namespace Built

variable {frame : Frame α n}

theorem eq_on (built : frame.Built) : frame = on frame.plane := by
  have from_plane := built.from_plane
  cases n with
  | zero => cases from_plane
  | succ n =>
    have same : (⟨n + 1, on frame.plane⟩ : (n : Nat) × Frame α n) = ⟨n + 1, frame⟩ :=
      Except.ok.inj from_plane
    exact (eq_of_heq (Sigma.mk.inj same).2).symm

theorem pivot_ne_zero (built : frame.Built) : frame.pivot ≠ 0 := by
  rw [built.eq_on]
  exact pivot_on_ne_zero built.normalised.normal_ne_zero

theorem steep (built : frame.Built) : frame.Steep := by
  rw [built.eq_on]
  exact on_steep frame.plane

/-- No component exceeds the pivot, so the unit normal is at most `n + 1` times its square. -/
theorem one_le_pivot_mul_self (built : frame.Built) :
    1 ≤ ((n + 1 : Nat) : α) * (frame.pivot * frame.pivot) := by
  have terms : ∀ j, frame.plane.normal.coord (frame.axis.succAbove j) *
      frame.plane.normal.coord (frame.axis.succAbove j) ≤ frame.pivot * frame.pivot :=
    fun j => abs_le_iff_mul_self_le.mp (built.steep j)
  calc 1
      _ = frame.plane.normal.dot frame.plane.normal := built.normalised.unit.symm
      _ = frame.pivot * frame.pivot + ∑ j : Fin n, frame.plane.normal.coord (frame.axis.succAbove j) *
            frame.plane.normal.coord (frame.axis.succAbove j) := by
        rw [Vec.dot_eq_sum, Fin.sum_univ_succAbove _ frame.axis, coord_normal_axis]
      _ ≤ frame.pivot * frame.pivot + ∑ _j : Fin n, frame.pivot * frame.pivot :=
        add_le_add_right (Finset.sum_le_sum fun j _ => terms j) _
      _ = ((n + 1 : Nat) : α) * (frame.pivot * frame.pivot) := by
        rw [Finset.sum_const, Finset.card_univ, Fintype.card_fin, nsmul_eq_mul, Nat.cast_succ]
        ring

/-- The largest component of a unit normal is at least the one it has if all are the same. -/
theorem inv_sqrt_le_pivot (built : frame.Built) :
    1 / Scalar.sqrt ((n + 1 : Nat) : α) ≤ |frame.pivot| := by
  have root_pos : 0 < Scalar.sqrt ((n + 1 : Nat) : α) := by
    refine one_pos.trans_le (Scalar.one_le_sqrt ?_)
    exact_mod_cast Nat.le_add_left 1 n
  have root : Scalar.sqrt ((n + 1 : Nat) : α) * Scalar.sqrt ((n + 1 : Nat) : α) = ((n + 1 : Nat) : α) :=
    ExactScalar.sqrt_mul_self _ (Nat.cast_nonneg _)
  rw [div_le_iff₀ root_pos]
  apply (mul_self_le_mul_self_iff zero_le_one (mul_nonneg (abs_nonneg _) root_pos.le)).mpr
  rw [mul_mul_mul_comm, abs_mul_abs_self, root, one_mul, mul_comm]
  exact built.one_le_pivot_mul_self

end Built

/-! ## Points -/

theorem dot_sweep (frame : Frame α n) (v : Vec α (n + 1)) : v.dot frame.sweep = v.coord frame.axis := by
  rw [Vec.dot_comm, sweep, Vec.axis_dot]

theorem coord_sweep_succAbove (frame : Frame α n) (j : Fin n) :
    frame.sweep.coord (frame.axis.succAbove j) = 0 := by
  rw [sweep, Vec.axis, Vec.coord_ofFn, if_neg (Fin.succAbove_ne _ j)]

/-- Sliding along the axis changes the axis coordinate alone. -/
theorem dropCoord_slide (frame : Frame α n) (x : Point α (n + 1)) (t : α) :
    (x.translate (frame.sweep.scaled t)).dropCoord frame.axis = x.dropCoord frame.axis := by
  apply Point.ext_coord
  intro j
  refine (Point.coord_dropCoord _ _ j).trans (.trans ?_ (Point.coord_dropCoord _ _ j).symm)
  rw [Point.translate, Point.coord_ofFn, ← Vec.coord, Vec.coord_scaled, coord_sweep_succAbove, zero_mul,
    add_zero]

end Frame

variable {frame : Frame α n} {tol : Tolerance α}

/-- A point slides onto the plane wherever the axis leaves the plane steeply enough, and reduces to its
other coordinates. -/
theorem Point.reduce_eq_dropCoord (steep : tol.det < |frame.pivot|) (x : Point α (n + 1)) :
    x.reduce frame tol = some (x.dropCoord frame.axis) := by
  have rate : frame.plane.normal.dot frame.sweep = frame.pivot := by
    rw [frame.dot_sweep, frame.coord_normal_axis]
  have across : ¬Scalar.abs (frame.plane.normal.dot frame.sweep) ≤ tol.det := by
    rw [rate, ExactScalar.abs_eq_abs]
    exact not_le.mpr steep
  simp only [reduce, if_neg across, frame.dropCoord_slide]

/-- A plane of R^3 along no axis. -/
noncomputable def tiltedPlane : Plane ℝ 3 := (HalfSpace.ofUnit ⟨#v[6 / 23, 18 / 23, 13 / 23]⟩ 1).boundary

theorem tiltedPlane_normalised : tiltedPlane.Normalised := by
  refine HalfSpace.normalised_ofUnit ?_ 1
  rw [Vec.dot_eq_sum, Fin.sum_univ_three]
  show (6 / 23 : ℝ) * (6 / 23) + 18 / 23 * (18 / 23) + 13 / 23 * (13 / 23) = 1
  norm_num

namespace Frame

/-- **The chart is a bijection.** With a tolerance below the least pivot of a unit normal, a lifted point lies
on the plane and reduces to where it came from; and every point reduces, to a chart point whose lift differs
from it along the axis at most, and not at all on the plane. -/
theorem chart_bijective (built : frame.Built) (small : tol.det < 1 / Scalar.sqrt ((n + 1 : Nat) : α)) :
    (∀ q : Point α n, frame.plane.Holds (frame.lift q) ∧ (frame.lift q).reduce frame tol = some q) ∧
    ∀ x : Point α (n + 1), ∃ q : Point α n, x.reduce frame tol = some q ∧
      (∀ i, i ≠ frame.axis → (frame.lift q).coord i = x.coord i) ∧
      (frame.plane.Holds x → frame.lift q = x) := by
  have reduces : ∀ x : Point α (n + 1), x.reduce frame tol = some (x.dropCoord frame.axis) :=
    Point.reduce_eq_dropCoord (small.trans_le built.inv_sqrt_le_pivot)
  refine ⟨fun q => ⟨plane_eval_lift built.pivot_ne_zero q, ?_⟩, fun x => ?_⟩
  · rw [reduces, dropCoord_lift]
  · refine ⟨x.dropCoord frame.axis, reduces x, fun i other => ?_, lift_dropCoord built.pivot_ne_zero⟩
    obtain ⟨j, rfl⟩ := Fin.exists_succAbove_eq other
    rw [coord_lift_succAbove]
    exact Point.coord_dropCoord x frame.axis j

theorem axis_on_tiltedPlane : (on tiltedPlane).axis = 1 := by
  have larger : |tiltedPlane.normal.coords.get 0| < |tiltedPlane.normal.coords.get 1| := by
    show |(6 / 23 : ℝ)| < |(18 / 23 : ℝ)|
    norm_num [abs_of_pos]
  have smaller : ¬|tiltedPlane.normal.coords.get 1| < |tiltedPlane.normal.coords.get 2| := by
    show ¬|(18 / 23 : ℝ)| < |(13 / 23 : ℝ)|
    norm_num [abs_of_pos]
  have axes : List.finRange (2 + 1) = [0, 1, 2] := rfl
  rw [on, Coords.argMaxAbs, axes]
  simp only [List.foldl_cons, List.foldl_nil, ExactScalar.abs_eq_abs, Fin.zero_eta, lt_self_iff_false, if_false,
    if_pos larger, if_neg smaller]

/-- A tolerance of one half is small enough in R^3. -/
theorem chart_tilted_bijective :
    (on tiltedPlane).Built ∧ (1 / 2 : ℝ) < 1 / Scalar.sqrt ((2 + 1 : Nat) : ℝ) ∧
    (∀ q : Point ℝ 2, tiltedPlane.Holds ((on tiltedPlane).lift q) ∧
      ((on tiltedPlane).lift q).reduce (on tiltedPlane) ⟨1 / 2, 0⟩ = some q) ∧
    ∀ x : Point ℝ 3, ∃ q : Point ℝ 2, x.reduce (on tiltedPlane) ⟨1 / 2, 0⟩ = some q ∧
      (∀ i : Fin 3, i ≠ 1 → ((on tiltedPlane).lift q).coord i = x.coord i) ∧
      (tiltedPlane.Holds x → (on tiltedPlane).lift q = x) := by
  have built : (on tiltedPlane).Built := built_on tiltedPlane_normalised
  have small : (⟨1 / 2, 0⟩ : Tolerance ℝ).det < 1 / Scalar.sqrt ((2 + 1 : Nat) : ℝ) := by
    have root : Real.sqrt ((2 + 1 : Nat) : ℝ) < 2 := (Real.sqrt_lt' two_pos).mpr (by norm_num)
    exact one_div_lt_one_div_of_lt (Real.sqrt_pos.mpr (by norm_num)) root
  obtain ⟨lands, reduces⟩ := chart_bijective built small
  rw [axis_on_tiltedPlane] at reduces
  exact ⟨built, small, lands, reduces⟩

/-! ## Functionals -/

/-- **A reduced functional compares chart points as the functional compares their lifts.** Its values differ
from those at the lifted points by one constant, also for a functional of fewer coordinates. -/
theorem reduced_functional_compares (built : frame.Built) {m : Nat} (fits : m ≤ n + 1) (v : Vec α m) :
    (∀ q : Point α n, v.eval (frame.lift q) = (v.reduce frame).eval q +
      v.coord frame.axis / frame.plane.normal.coord frame.axis * frame.plane.offset) ∧
    ∀ q q' : Point α n,
      v.eval (frame.lift q) - v.eval (frame.lift q') =
        (v.reduce frame).eval q - (v.reduce frame).eval q' ∧
      (v.eval (frame.lift q) ≤ v.eval (frame.lift q') ↔
        (v.reduce frame).eval q ≤ (v.reduce frame).eval q') := by
  have charted : ∀ q : Point α n, v.eval (frame.lift q) =
      (v.reduce frame).eval q + frame.ratio v * frame.plane.offset :=
    fun q => eval_lift built.pivot_ne_zero fits v q
  refine ⟨fun q => ?_, fun q q' => ⟨?_, ?_⟩⟩
  · rw [charted, ratio, coord_normal_axis]
  · rw [charted, charted, add_sub_add_right_eq_sub]
  · rw [charted, charted, add_le_add_iff_right]

/-- The sum of the first two coordinates, a functional that lacks the third. -/
theorem reduced_tilted_functional_compares :
    (on tiltedPlane).Built ∧ 2 ≤ 3 ∧
    ∀ q : Point ℝ 2, (⟨#v[1, 1]⟩ : Vec ℝ 2).eval ((on tiltedPlane).lift q) =
      ((⟨#v[1, 1]⟩ : Vec ℝ 2).reduce (on tiltedPlane)).eval q + 23 / 18 := by
  have built : (on tiltedPlane).Built := built_on tiltedPlane_normalised
  obtain ⟨constant, -⟩ := reduced_functional_compares built (Nat.le_succ 2) (⟨#v[1, 1]⟩ : Vec ℝ 2)
  rw [axis_on_tiltedPlane] at constant
  refine ⟨built, Nat.le_succ 2, fun q => (constant q).trans ?_⟩
  congr 1
  simp [on, tiltedPlane, HalfSpace.ofUnit, Vec.coord, Coords.get]

end Frame

end LowDimLP
