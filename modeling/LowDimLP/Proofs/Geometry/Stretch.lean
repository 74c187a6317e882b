import LowDimLP.Proofs.Geometry.Trace
/-!
# How much a chart stretches distances

A frame drops the coordinate with the largest normal component, so no other component of its normal
exceeds the pivot. Hence pulling a functional of R^(n+1) back to the chart multiplies its length by at most
`√(n+1)` (`Frame.length_pullBack_le`). A trace is stored with a unit normal again, so that factor is what a
distance of the chart may grow by when it is read as one of R^(n+1) (`HalfSpace.containsWithin_lift`).
-/

namespace LowDimLP

universe u

variable {α : Type u} [ExactScalar α]

namespace Scalar

theorem le_sqrt {x y : α} (h : x * x ≤ y) : x ≤ sqrt y := by
  by_contra less
  have squares : sqrt y * sqrt y < x * x :=
    mul_self_lt_mul_self (ExactScalar.sqrt_nonneg y) (not_le.mp less)
  rw [ExactScalar.sqrt_mul_self y ((mul_self_nonneg x).trans h)] at squares
  exact absurd h (not_le.mpr squares)

theorem sqrt_mul {x y : α} (hx : 0 ≤ x) (hy : 0 ≤ y) : sqrt (x * y) = sqrt x * sqrt y := by
  have root_nonneg := mul_nonneg (ExactScalar.sqrt_nonneg x) (ExactScalar.sqrt_nonneg y)
  rw [← mul_self_inj (ExactScalar.sqrt_nonneg _) root_nonneg, mul_mul_mul_comm,
    ExactScalar.sqrt_mul_self x hx, ExactScalar.sqrt_mul_self y hy,
    ExactScalar.sqrt_mul_self _ (mul_nonneg hx hy)]

theorem sqrt_mul_self_eq {x : α} (hx : 0 ≤ x) : sqrt (x * x) = x := by
  rw [sqrt_mul hx hx, ExactScalar.sqrt_mul_self x hx]

theorem one_le_sqrt {x : α} (h : 1 ≤ x) : 1 ≤ sqrt x := le_sqrt (by rwa [one_mul])

end Scalar

variable {n : Nat}

namespace Frame

variable {frame : Frame α n}

/-- No component of the normal beside the pivot exceeds it. -/
def Steep (frame : Frame α n) : Prop :=
  ∀ j, |frame.plane.normal.coord (frame.axis.succAbove j)| ≤ |frame.pivot|

theorem on_steep (plane : Plane α (n + 1)) : (on plane).Steep := by
  intro j
  rw [Vec.coord, Coords.get_fin]
  exact Coords.abs_le_abs_argMaxAbs plane.normal.coords _

/-- One component after the pull-back: `v` is the component before, `a` the one along the axis and `c` the
share of it that is taken off. -/
theorem square_component_le {c : α} (small : c * c ≤ 1) (v a : α) (n : Nat) :
    n * ((v - a * c) * (v - a * c)) ≤ (n + 1) * (n * (v * v) + a * a) := by
  have rest : 0 ≤ (n + 1) * (a * a) * (1 - c * c) :=
    mul_nonneg (mul_nonneg (by positivity) (mul_self_nonneg a)) (sub_nonneg.mpr small)
  have square : 0 ≤ (n * v + a * c) * (n * v + a * c) := mul_self_nonneg _
  have difference : (n + 1) * (n * (v * v) + a * a) - n * ((v - a * c) * (v - a * c)) =
      (n * v + a * c) * (n * v + a * c) + (n + 1) * (a * a) * (1 - c * c) := by ring
  linarith

theorem dot_pullBack_le (steep : frame.Steep) (pivot : frame.pivot ≠ 0) (v : Vec α (n + 1)) :
    (frame.pullBack v).dot (frame.pullBack v) ≤ (n + 1) * v.dot v := by
  rcases Nat.eq_zero_or_pos n with rfl | positive
  -- A chart without coordinates has only the zero functional.
  · have none : (frame.pullBack v).dot (frame.pullBack v) = 0 := by simp [Vec.dot_eq_sum]
    rw [none]
    exact mul_nonneg (by positivity) v.dot_self_nonneg
  · let a := v.coord frame.axis
    have share : ∀ j, frame.ratio v * frame.plane.normal.coord (frame.axis.succAbove j) =
        a * (frame.plane.normal.coord (frame.axis.succAbove j) / frame.pivot) := by
      intro j
      rw [ratio]
      ring
    have small : ∀ j, frame.plane.normal.coord (frame.axis.succAbove j) / frame.pivot *
        (frame.plane.normal.coord (frame.axis.succAbove j) / frame.pivot) ≤ 1 := by
      intro j
      rw [← abs_le_one_iff_mul_self_le_one, abs_div]
      exact (div_le_one (abs_pos.mpr pivot)).mpr (steep j)
    -- Each of the n terms may take the square along the axis once, so the sum is bounded n-fold.
    have terms : n * (frame.pullBack v).dot (frame.pullBack v) ≤ n * ((n + 1) * v.dot v) := by
      calc n * (frame.pullBack v).dot (frame.pullBack v)
          _ = ∑ j : Fin n, n * ((frame.pullBack v).coord j * (frame.pullBack v).coord j) := by
            rw [Vec.dot_eq_sum, Finset.mul_sum]
          _ ≤ ∑ j : Fin n, (n + 1) * (n * (v.coord (frame.axis.succAbove j) *
                v.coord (frame.axis.succAbove j)) + a * a) := by
            refine Finset.sum_le_sum fun j _ => ?_
            rw [coord_pullBack, share]
            exact square_component_le (small j) _ a n
          _ = n * ((n + 1) * v.dot v) := by
            rw [Vec.dot_eq_sum, Fin.sum_univ_succAbove _ frame.axis, ← Finset.mul_sum,
              Finset.sum_add_distrib, ← Finset.mul_sum, Finset.sum_const, Finset.card_univ,
              Fintype.card_fin, nsmul_eq_mul]
            ring
    exact le_of_mul_le_mul_left terms (Nat.cast_pos.mpr positive)

theorem length_pullBack_le (steep : frame.Steep) (pivot : frame.pivot ≠ 0) {v : Vec α (n + 1)}
    (unit : v.dot v = 1) : (frame.pullBack v).length ≤ Scalar.sqrt ((n + 1 : Nat) : α) := by
  apply Scalar.le_sqrt
  have stretched := dot_pullBack_le steep pivot v
  rwa [unit, mul_one, ← Vec.length_mul_self, ← Nat.cast_succ] at stretched

end Frame

variable {frame : Frame α n} {tol : Tolerance α} {h : HalfSpace α (n + 1)} {slack : α}

/-- A chart point within the slack of a trace lies, lifted, within `√(n+1)` times the slack of the
half-space. -/
theorem HalfSpace.containsWithin_lift (steep : frame.Steep) (pivot : frame.pivot ≠ 0)
    (unit : h.Normalised) (nonneg : 0 ≤ slack) {r : Plane α n}
    (trace : h.boundary.reduce frame tol = some r) {y : Point α n}
    (within : (HalfSpace.mk r).containsWithin y slack = true) :
    h.containsWithin (frame.lift y) (Scalar.sqrt ((n + 1 : Nat) : α) * slack) = true := by
  obtain ⟨-, -, -, distances⟩ := Plane.reduce_eq_some pivot trace
  have within : r.signedDistance y ≤ slack := of_decide_eq_true within
  apply decide_eq_true
  calc h.boundary.signedDistance (frame.lift y)
      _ = (frame.pullBack h.boundary.normal).length * r.signedDistance y := distances y
      _ ≤ (frame.pullBack h.boundary.normal).length * slack :=
        mul_le_mul_of_nonneg_left within (Vec.length_nonneg _)
      _ ≤ Scalar.sqrt ((n + 1 : Nat) : α) * slack :=
        mul_le_mul_of_nonneg_right (Frame.length_pullBack_le steep pivot unit.unit) nonneg

end LowDimLP
