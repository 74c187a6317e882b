import LowDimLP.Proofs.Geometry.Frames
/-!
# Parallel planes

The chart loses sight of a functional, its pull-back is zero, exactly if the functional is a multiple of the
plane's normal (`Frame.pullBack_eq_zero_iff`). So a half-space leaves a bound of the chart on every plane its
own boundary is not parallel to, and on the others everything or nothing, whichever the points of the plane
say (`HalfSpace.reduce_exact_trace`).
-/

namespace LowDimLP

universe u

variable {α : Type u} [ExactScalar α] {n : Nat}

/-- The first is a multiple of the second. Planes with such normals are parallel, whichever way they face. -/
def Vec.Parallel (u v : Vec α n) : Prop := ∃ t, u = v.scaled t

theorem Vec.neg_parallel (v : Vec α n) : v.neg.Parallel v := by
  refine ⟨-1, Vec.ext_coord fun i => ?_⟩
  rw [Vec.coord_neg, Vec.coord_scaled, mul_neg_one]

variable {frame : Frame α n}

theorem Frame.pullBack_eq_zero_iff (pivot : frame.pivot ≠ 0) {v : Vec α (n + 1)} :
    frame.pullBack v = Vec.zero ↔ v.Parallel frame.plane.normal := by
  constructor
  · intro vanishes
    refine ⟨frame.ratio v, Vec.ext_coord fun i => ?_⟩
    rw [Vec.coord_scaled]
    rcases Fin.eq_self_or_eq_succAbove frame.axis i with rfl | ⟨j, rfl⟩
    · rw [coord_normal_axis, ratio, mul_div_cancel₀ _ pivot]
    · have entry := congrArg (Vec.coord · j) vanishes
      rw [coord_pullBack, Vec.coord_zero, sub_eq_zero, mul_comm] at entry
      exact entry
  · rintro ⟨t, rfl⟩
    have ratio_eq : frame.ratio (frame.plane.normal.scaled t) = t := by
      rw [ratio, Vec.coord_scaled, coord_normal_axis, mul_div_cancel_left₀ _ pivot]
    apply Vec.ext_coord
    intro j
    rw [coord_pullBack, ratio_eq, Vec.coord_scaled, Vec.coord_zero, mul_comm, sub_self]

namespace HalfSpace

variable {tol : Tolerance α}

/-- **A half-space reduces to its trace on the plane.** It leaves a bound exactly if the boundary is not
parallel to the plane, and then its signed distance is the bound's up to one positive factor, so both contain
the same points. Otherwise it leaves everything exactly if it contains every point of the plane within the
slack, and nothing exactly if it contains none. -/
theorem reduce_exact_trace (built : frame.Built) (det : tol.det = 0) (h : HalfSpace α (n + 1)) :
    ((∃ r, h.reduce frame tol = .bound r) ↔ ¬h.boundary.normal.Parallel frame.plane.normal) ∧
    (∀ r, h.reduce frame tol = .bound r →
      (∃ k, 0 < k ∧ ∀ y : Point α n,
        h.boundary.signedDistance (frame.lift y) = k * r.boundary.signedDistance y) ∧
      ∀ y : Point α n, r.containsWithin y 0 = true ↔ h.containsWithin (frame.lift y) 0 = true) ∧
    (h.reduce frame tol = .free ↔ h.boundary.normal.Parallel frame.plane.normal ∧
      ∀ y : Point α n, h.containsWithin (frame.lift y) tol.feas = true) ∧
    (h.reduce frame tol = .empty ↔ h.boundary.normal.Parallel frame.plane.normal ∧
      ∀ y : Point α n, h.containsWithin (frame.lift y) tol.feas = false) := by
  have describes := h.reduce_spec built.normalised built.pivot_ne_zero det
  have parallel_iff := Frame.pullBack_eq_zero_iff built.pivot_ne_zero (v := h.boundary.normal)
  cases trace : h.reduce frame tol with
  | bound r =>
    rw [trace] at describes
    have crossing : ¬h.boundary.normal.Parallel frame.plane.normal := fun parallel =>
      describes.1 (parallel_iff.mpr parallel)
    refine ⟨iff_of_true ⟨r, rfl⟩ crossing, ?_, ?_, ?_⟩
    · intro other same
      obtain rfl := Trace.bound.inj same
      refine ⟨?_, fun y => ?_⟩
      · obtain ⟨-, -, k, positive, -, distances⟩ := describes
        exact ⟨k, positive, distances⟩
      · rw [containsWithin_zero_iff, containsWithin_zero_iff]
        exact holds_bound_iff describes y
    · exact iff_of_false nofun fun everything => crossing everything.1
    · exact iff_of_false nofun fun nothing => crossing nothing.1
  | free =>
    rw [trace] at describes
    obtain ⟨vanishes, inside⟩ := describes
    have parallel := parallel_iff.mp vanishes
    refine ⟨iff_of_false nofun (not_not_intro parallel), nofun, iff_of_true rfl ⟨parallel, inside⟩, ?_⟩
    refine iff_of_false nofun fun nothing => ?_
    exact absurd (inside Point.origin) (by rw [nothing.2]; simp)
  | empty =>
    rw [trace] at describes
    obtain ⟨vanishes, outside⟩ := describes
    have parallel := parallel_iff.mp vanishes
    refine ⟨iff_of_false nofun (not_not_intro parallel), nofun, ?_, iff_of_true rfl ⟨parallel, outside⟩⟩
    refine iff_of_false nofun fun everything => ?_
    exact absurd (everything.2 Point.origin) (by rw [outside]; simp)

/-- The points beyond the tilted plane, at a distance of one or more. -/
noncomputable def beyondTilted : HalfSpace ℝ 3 := .ofUnit tiltedPlane.normal.neg (-tiltedPlane.offset - 1)

theorem containsWithin_beyondTilted_iff (y : Point ℝ 2) (eps : ℝ) :
    beyondTilted.containsWithin ((Frame.on tiltedPlane).lift y) eps = true ↔ 1 ≤ eps := by
  have built := Frame.built_on tiltedPlane_normalised
  have on_plane : tiltedPlane.normal.eval ((Frame.on tiltedPlane).lift y) = tiltedPlane.offset :=
    Frame.plane_eval_lift built.pivot_ne_zero y
  have distance : beyondTilted.boundary.signedDistance ((Frame.on tiltedPlane).lift y) = 1 := by
    show tiltedPlane.normal.neg.eval _ - (-tiltedPlane.offset - 1) = 1
    rw [Vec.neg_eval, on_plane]
    ring
  rw [containsWithin, distance, decide_eq_true_iff]

/-- The far side is parallel to the plane, so the slack alone decides whether it leaves everything or nothing;
the coordinate plane crosses it. -/
theorem reduce_tilted_exact_trace :
    (Frame.on tiltedPlane).Built ∧
    (⟨0, 1⟩ : Tolerance ℝ).det = 0 ∧ (⟨0, 1 / 2⟩ : Tolerance ℝ).det = 0 ∧
    beyondTilted.reduce (Frame.on tiltedPlane) ⟨0, 1⟩ = .free ∧
    beyondTilted.reduce (Frame.on tiltedPlane) ⟨0, 1 / 2⟩ = .empty ∧
    ∃ r, (HalfSpace.ofUnit ⟨#v[1, 0, 0]⟩ 0).reduce (Frame.on tiltedPlane) ⟨0, 1⟩ = .bound r := by
  have built : (Frame.on tiltedPlane).Built := Frame.built_on tiltedPlane_normalised
  have wide : (⟨0, 1⟩ : Tolerance ℝ).det = 0 := rfl
  have narrow : (⟨0, 1 / 2⟩ : Tolerance ℝ).det = 0 := rfl
  have parallel : beyondTilted.boundary.normal.Parallel tiltedPlane.normal := Vec.neg_parallel _
  obtain ⟨-, -, everything, -⟩ := reduce_exact_trace built wide beyondTilted
  obtain ⟨-, -, -, nothing⟩ := reduce_exact_trace built narrow beyondTilted
  obtain ⟨crosses, -⟩ := reduce_exact_trace built wide (HalfSpace.ofUnit ⟨#v[1, 0, 0]⟩ 0)
  refine ⟨built, wide, narrow, everything.mpr ⟨parallel, fun y => ?_⟩,
    nothing.mpr ⟨parallel, fun y => ?_⟩, crosses.mpr ?_⟩
  · exact (containsWithin_beyondTilted_iff y 1).mpr le_rfl
  · rw [Bool.eq_false_iff, Ne, containsWithin_beyondTilted_iff]
    norm_num
  · intro ⟨t, multiple⟩
    have first : (1 : ℝ) = 6 / 23 * t := (congrArg (Vec.coord · 0) multiple).trans (Vec.coord_scaled _ t 0)
    have second : (0 : ℝ) = 18 / 23 * t := (congrArg (Vec.coord · 1) multiple).trans (Vec.coord_scaled _ t 1)
    linarith

end HalfSpace

end LowDimLP
