import LowDimLP.Proofs.Geometry.Chart
import LowDimLP.Proofs.LinearProgram
/-!
# Traces on a frame's plane

In exact arithmetic, and with no tolerance for parallel normals, a half-space leaves on the frame's plane
exactly what of the plane lies in it: a half-space of the chart, whose signed distance is the original's up
to a positive factor, or, when the normals are parallel, all or nothing (`HalfSpace.reduce_spec`). Hence the
traces of a list have, read through the chart, the feasible points of the list on the plane and the
directions that leave none of its half-spaces (`Frame.traces_none`, `Frame.traces_some`).
-/

namespace LowDimLP

universe u

variable {α : Type u} [ExactScalar α] {n : Nat} {frame : Frame α n}

namespace Frame

/-- A functional whose pull-back vanishes is constant on the plane. -/
theorem eval_lift_of_pullBack_eq_zero (pivot : frame.pivot ≠ 0) {v : Vec α (n + 1)}
    (parallel : frame.pullBack v = Vec.zero) (y : Point α n) :
    v.eval (frame.lift y) = frame.ratio v * frame.plane.offset := by
  rw [eval_lift pivot le_rfl, parallel, Vec.eval_eq_sum le_rfl]
  simp

/-- To look for a point on the plane is to look for one in the chart. -/
theorem exists_holds_iff (pivot : frame.pivot ≠ 0) {P : Point α (n + 1) → Prop} :
    (∃ x, frame.plane.Holds x ∧ P x) ↔ ∃ y, P (frame.lift y) := by
  constructor
  · intro ⟨x, on_plane, hx⟩
    obtain ⟨y, rfl⟩ := exists_lift_eq pivot on_plane
    exact ⟨y, hx⟩
  · intro ⟨y, hy⟩
    exact ⟨_, plane_eval_lift pivot y, hy⟩

/-- The displacement between two lifted points, measured by a functional. -/
theorem dot_displacement_lift (pivot : frame.pivot ≠ 0) (v : Vec α (n + 1)) (y : Point α n)
    (d : Vec α n) :
    v.dot ((frame.lift y).displacement (frame.lift (y.translate d))) = (frame.pullBack v).dot d := by
  rw [Vec.dot_displacement, eval_lift pivot le_rfl, eval_lift pivot le_rfl, Vec.eval_translate]
  ring

end Frame

namespace Plane

variable {plane : Plane α (n + 1)} {tol : Tolerance α}

theorem pullBack_eq_zero_of_reduce (det : tol.det = 0) (none : plane.reduce frame tol = none) :
    frame.pullBack plane.normal = Vec.zero := by
  by_contra nonzero
  rw [reduce, det] at none
  simp [nonzero, ofEquation_eq_ok nonzero, Except.toOption] at none

/-- The trace of a plane: its signed distance differs from the plane's by the length of the
pulled-back normal, which the trace's own normal is divided by. -/
theorem reduce_eq_some {r : Plane α n} (pivot : frame.pivot ≠ 0)
    (some : plane.reduce frame tol = some r) :
    frame.pullBack plane.normal ≠ Vec.zero ∧ r.Normalised ∧
      (∀ d, (frame.pullBack plane.normal).dot d =
        (frame.pullBack plane.normal).length * r.normal.dot d) ∧
      ∀ y, plane.signedDistance (frame.lift y) =
        (frame.pullBack plane.normal).length * r.signedDistance y := by
  rw [reduce] at some
  split at some
  · cases some
  · have nonzero : frame.pullBack plane.normal ≠ Vec.zero := by
      intro zero
      rw [zero, ofEquation_zero] at some
      cases some
    rw [ofEquation_eq_ok nonzero] at some
    have normalised := normalised_of_ofEquation (ofEquation_eq_ok nonzero
      (plane.offset - frame.ratio plane.normal * frame.plane.offset))
    cases some
    have positive := (Vec.length_pos nonzero).ne'
    refine ⟨nonzero, normalised, fun d => ?_, fun y => ?_⟩
    · rw [Vec.scaled_dot]
      field_simp
    · rw [signedDistance, signedDistance, Vec.scaled_eval, Frame.eval_lift pivot le_rfl]
      field_simp
      ring

end Plane

/-- What a trace says of the half-space `h` on the frame's plane. -/
def Trace.Describes (frame : Frame α n) (tol : Tolerance α) (h : HalfSpace α (n + 1)) :
    Trace α n → Prop
  | .bound r => frame.pullBack h.boundary.normal ≠ Vec.zero ∧ r.Normalised ∧
      ∃ k, 0 < k ∧ (∀ d, (frame.pullBack h.boundary.normal).dot d = k * r.boundary.normal.dot d) ∧
        ∀ y, h.boundary.signedDistance (frame.lift y) = k * r.boundary.signedDistance y
  | .free => frame.pullBack h.boundary.normal = Vec.zero ∧
      ∀ y, h.containsWithin (frame.lift y) tol.feas = true
  | .empty => frame.pullBack h.boundary.normal = Vec.zero ∧
      ∀ y, h.containsWithin (frame.lift y) tol.feas = false

/-- A half-space reduces to its exact trace. Where the normals are parallel one sample decides: every
point of the plane has the same signed distance. -/
theorem HalfSpace.reduce_spec (normalised : frame.plane.Normalised) (pivot : frame.pivot ≠ 0)
    {tol : Tolerance α} (det : tol.det = 0) (h : HalfSpace α (n + 1)) :
    (h.reduce frame tol).Describes frame tol h := by
  rw [reduce]
  cases trace : h.boundary.reduce frame tol with
  | some r =>
    obtain ⟨nonzero, unit, dots, distances⟩ := Plane.reduce_eq_some pivot trace
    exact ⟨nonzero, unit, _, Vec.length_pos nonzero, dots, distances⟩
  | none =>
    have parallel := Plane.pullBack_eq_zero_of_reduce det trace
    obtain ⟨sample, lifted⟩ := Frame.exists_lift_eq pivot normalised.holds_point
    have same : ∀ y, h.containsWithin (frame.lift y) tol.feas =
        h.containsWithin frame.plane.point tol.feas := by
      intro y
      rw [← lifted, containsWithin, containsWithin, Plane.signedDistance, Plane.signedDistance,
        Frame.eval_lift_of_pullBack_eq_zero pivot parallel,
        Frame.eval_lift_of_pullBack_eq_zero pivot parallel]
    cases inside : h.containsWithin frame.plane.point tol.feas with
    | true => exact ⟨parallel, fun y => (same y).trans inside⟩
    | false => exact ⟨parallel, fun y => (same y).trans inside⟩

namespace HalfSpace

variable {h : HalfSpace α (n + 1)} {r : HalfSpace α n} {tol : Tolerance α}

theorem boundary_reduce_of_bound (trace : h.reduce frame tol = .bound r) :
    h.boundary.reduce frame tol = some r.boundary := by
  rw [reduce] at trace
  cases reduces : h.boundary.reduce frame tol with
  | some plane =>
    rw [reduces] at trace
    cases trace
    rfl
  | none =>
    rw [reduces] at trace
    dsimp only at trace
    split at trace <;> cases trace

theorem holds_iff_signedDistance {m : Nat} {h : HalfSpace α m} {x : Point α m} :
    h.Holds x ↔ h.boundary.signedDistance x ≤ 0 := by
  rw [Holds, Plane.signedDistance, sub_nonpos]

/-- The bound of the chart holds of a chart point as the half-space does of its lift. -/
theorem holds_bound_iff (describes : (Trace.bound r).Describes frame tol h) (y : Point α n) :
    r.Holds y ↔ h.Holds (frame.lift y) := by
  obtain ⟨-, -, k, positive, -, distances⟩ := describes
  rw [holds_iff_signedDistance, holds_iff_signedDistance, distances]
  exact ⟨mul_nonpos_of_nonneg_of_nonpos positive.le,
    fun outside => nonpos_of_mul_nonpos_right outside positive⟩

end HalfSpace

namespace Frame

variable {tol : Tolerance α} {hs : List (HalfSpace α (n + 1))}

/-- The plane misses the intersection as soon as one half-space excludes it. -/
theorem traces_none (normalised : frame.plane.Normalised) (pivot : frame.pivot ≠ 0)
    (det : tol.det = 0) (feas : tol.feas = 0) (none : frame.traces tol hs = none)
    (y : Point α n) : ¬Feasible hs (frame.lift y) := by
  induction hs with
  | nil => cases none
  | cons h hs ih =>
    rw [feasible_cons]
    intro ⟨first, others⟩
    have describes := h.reduce_spec normalised pivot det
    rw [traces] at none
    cases trace : h.reduce frame tol with
    | bound r =>
      rw [trace] at none
      exact ih (Option.map_eq_none_iff.mp none) others
    | free =>
      rw [trace] at none
      exact ih none others
    | empty =>
      rw [trace] at describes
      have outside := describes.2 y
      rw [feas, HalfSpace.containsWithin_zero_iff.mpr first] at outside
      cases outside

/-- What the traces of a list say of the plane: they are normalised, hold of a chart point as the list
does of its lift, and a direction that leaves none of them leaves no half-space of the list. -/
structure TracesOf (frame : Frame α n) (hs : List (HalfSpace α (n + 1)))
    (reduced : List (HalfSpace α n)) : Prop where
  normalised : ∀ r ∈ reduced, r.Normalised
  feasible_iff : ∀ y, Feasible reduced y ↔ Feasible hs (frame.lift y)
  stays : ∀ d, (∀ r ∈ reduced, r.boundary.normal.dot d ≤ 0) →
    ∀ h ∈ hs, (frame.pullBack h.boundary.normal).dot d ≤ 0

theorem traces_some (normalised : frame.plane.Normalised) (pivot : frame.pivot ≠ 0)
    (det : tol.det = 0) (feas : tol.feas = 0) {reduced : List (HalfSpace α n)}
    (some : frame.traces tol hs = some reduced) : TracesOf frame hs reduced := by
  induction hs generalizing reduced with
  | nil =>
    cases some
    exact ⟨by simp, by simp [Feasible], by simp⟩
  | cons h hs ih =>
    have describes := h.reduce_spec normalised pivot det
    rw [traces] at some
    cases trace : h.reduce frame tol with
    | bound r =>
      rw [trace] at some describes
      obtain ⟨rest, tail, rfl⟩ := Option.map_eq_some_iff.mp some
      have tail := ih tail
      refine ⟨?_, fun y => ?_, fun d leaves => ?_⟩
      · exact List.forall_mem_cons.mpr ⟨describes.2.1, tail.normalised⟩
      · rw [feasible_cons, feasible_cons, tail.feasible_iff, HalfSpace.holds_bound_iff describes]
      · obtain ⟨-, -, k, positive, dots, -⟩ := describes
        obtain ⟨first, others⟩ := List.forall_mem_cons.mp leaves
        refine List.forall_mem_cons.mpr ⟨?_, tail.stays d others⟩
        rw [dots]
        exact mul_nonpos_of_nonneg_of_nonpos positive.le first
    | free =>
      rw [trace] at some describes
      have tail := ih some
      refine ⟨tail.normalised, fun y => ?_, fun d leaves => ?_⟩
      · have inside := describes.2 y
        rw [feas, HalfSpace.containsWithin_zero_iff] at inside
        rw [tail.feasible_iff, feasible_cons]
        exact (and_iff_right inside).symm
      · refine List.forall_mem_cons.mpr ⟨?_, tail.stays d leaves⟩
        rw [describes.1, Vec.dot_eq_sum]
        simp
    | empty =>
      rw [trace] at some
      cases some

end Frame

end LowDimLP
