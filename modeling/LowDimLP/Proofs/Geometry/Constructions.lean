import LowDimLP.Proofs.Geometry.Frames
import LowDimLP.Geometry.Meet
/-!
# Whatever is constructed is normalised

Planes and half-spaces come from equations, from each other, by a move to the origin, and as traces in a chart;
`Plane.Constructed` and `HalfSpace.Constructed` say so, for any number of steps and any tolerances. Every such plane
has a unit normal and carries the point `D·N`, also after many reductions: a trace is built from its equation like
any plane, so it is rescaled each time (`Plane.Constructed.normalised`). That point lies on the plane, and no other
point of the plane is closer to the origin (`Plane.Normalised.canonical`). A frame on such a plane divides by
a component that no other component of the unit normal exceeds, so never by zero (`Frame.Built.wellPivoted`).
-/

namespace LowDimLP

universe u

section Constructions

variable {α : Type u} [Scalar α]

mutual

/-- Planes that some sequence of constructions gives. -/
inductive Plane.Constructed : {n : Nat} → Plane α n → Prop where
  | ofEquation {n : Nat} {normal : Vec α n} {offset : α} {plane : Plane α n}
      (built : Plane.ofEquation normal offset = .ok plane) : plane.Constructed
  | boundary {n : Nat} {h : HalfSpace α n} (source : h.Constructed) : h.boundary.Constructed
  | reduce {n : Nat} {plane : Plane α (n + 1)} {frame : Frame α n} {tol : Tolerance α} {r : Plane α n}
      (source : plane.Constructed) (base : frame.plane.Constructed)
      (framed : Frame.ofPlane frame.plane = .ok ⟨n, frame⟩) (reduced : plane.reduce frame tol = some r) :
      r.Constructed
  | intersect {m n : Nat} {first : Plane α m} {second : Plane α n} {tol : Tolerance α} {r : AnyPlane α}
      (left : first.Constructed) (right : second.Constructed)
      (met : Plane.intersect tol first second = .ok (some (.plane r))) : r.2.Constructed

/-- Half-spaces that some sequence of constructions gives. -/
inductive HalfSpace.Constructed : {n : Nat} → HalfSpace α n → Prop where
  | ofInequality {n : Nat} {normal : Vec α n} {offset : α} {h : HalfSpace α n}
      (built : HalfSpace.ofInequality normal offset = .ok h) : h.Constructed
  | ofPlane {n : Nat} {plane : Plane α n} (source : plane.Constructed) : HalfSpace.Constructed ⟨plane⟩
  | recession {n : Nat} {h : HalfSpace α n} (source : h.Constructed) : h.recession.Constructed
  | reduce {n : Nat} {h : HalfSpace α (n + 1)} {frame : Frame α n} {tol : Tolerance α} {r : HalfSpace α n}
      (source : h.Constructed) (base : frame.plane.Constructed)
      (framed : Frame.ofPlane frame.plane = .ok ⟨n, frame⟩) (reduced : h.reduce frame tol = .bound r) :
      r.Constructed

end

/-- A frame on a constructed plane of at least two dimensions. -/
structure Frame.Constructed {n : Nat} (frame : Frame α n) : Prop where
  base : frame.plane.Constructed
  framed : Frame.ofPlane frame.plane = .ok ⟨n, frame⟩

/-- Two planes above the line have the trace of the second in common. -/
theorem Plane.exists_reduce_of_intersect {m n : Nat} {first : Plane α m} {second : Plane α n}
    {tol : Tolerance α} {r : AnyPlane α} (met : intersect tol first second = .ok (some (.plane r))) :
    ∃ (k : Nat) (base other : Plane α (k + 2)) (s : Plane α (k + 1)), r = ⟨k + 1, s⟩ ∧
      other.reduce (Frame.on base) tol = some s := by
  rw [intersect] at met
  split at met
  · next same =>
    subst same
    match n, first, second with
    | 0, _, _ => cases met
    | 1, _, _ =>
      dsimp only at met
      split at met <;> cases met
    | k + 2, first, second =>
      obtain ⟨s, reduced, same⟩ := Option.map_eq_some_iff.mp (Except.ok.inj met)
      cases same
      exact ⟨k, first, second, s, rfl, reduced⟩
  · cases met

/-- A trace is the plane of its equation in the chart. -/
theorem Plane.exists_ofEquation_of_reduce {n : Nat} {plane : Plane α (n + 1)} {frame : Frame α n}
    {tol : Tolerance α} {r : Plane α n} (reduced : plane.reduce frame tol = some r) :
    ∃ normal offset, ofEquation normal offset = .ok r := by
  rw [reduce] at reduced
  split at reduced
  · cases reduced
  · cases built : ofEquation (frame.pullBack plane.normal)
      (plane.offset - frame.ratio plane.normal * frame.plane.offset) with
    | error e =>
      rw [built] at reduced
      cases reduced
    | ok s =>
      rw [built] at reduced
      cases reduced
      exact ⟨_, _, built⟩

end Constructions

variable {α : Type u} [ExactScalar α] {n : Nat}

theorem Plane.normalised_of_reduce {plane : Plane α (n + 1)} {frame : Frame α n} {tol : Tolerance α}
    {r : Plane α n} (reduced : plane.reduce frame tol = some r) : r.Normalised := by
  obtain ⟨normal, offset, built⟩ := exists_ofEquation_of_reduce reduced
  exact normalised_of_ofEquation built

mutual

theorem Plane.Constructed.normalised {n : Nat} {plane : Plane α n} :
    plane.Constructed → plane.Normalised
  | .ofEquation built => Plane.normalised_of_ofEquation built
  | .boundary source => source.normalised
  | .reduce _ _ _ reduced => Plane.normalised_of_reduce reduced
  | .intersect _ _ met => by
    obtain ⟨k, base, other, s, rfl, reduced⟩ := Plane.exists_reduce_of_intersect met
    exact Plane.normalised_of_reduce reduced

theorem HalfSpace.Constructed.normalised {n : Nat} {h : HalfSpace α n} : h.Constructed → h.Normalised
  | .ofInequality built => HalfSpace.normalised_of_ofInequality built
  | .ofPlane source => source.normalised
  | .recession source => source.normalised.throughOrigin
  | .reduce _ _ _ reduced => Plane.normalised_of_reduce (HalfSpace.boundary_reduce_of_bound reduced)

end

/-! ## The point closest to the origin -/

theorem Point.distance_eq (p q : Point α n) :
    p.distance q = Scalar.sqrt (∑ i : Fin n, (p.coord i - q.coord i) * (p.coord i - q.coord i)) := by
  rw [distance, Scalar.sum_eq_sum, Coords.padded, max_self, ← Finset.sum_range
    (fun i => (p.coord i - q.coord i) * (p.coord i - q.coord i))]
  rfl

theorem Point.origin_distance (p : Point α n) :
    (origin : Point α n).distance p = Scalar.sqrt (∑ i : Fin n, p.coord i * p.coord i) := by
  rw [distance_eq]
  simp [origin, coord]

theorem Scalar.sqrt_le_sqrt {x y : α} (nonneg : 0 ≤ x) (h : x ≤ y) : sqrt x ≤ sqrt y :=
  le_sqrt ((ExactScalar.sqrt_mul_self x nonneg).le.trans h)

namespace Plane.Normalised

variable {plane : Plane α n}

/-- The offset of a plane is its distance from the origin, which no point of the plane undercuts. -/
theorem offset_mul_self_le (h : plane.Normalised) {x : Point α n} (on_plane : plane.Holds x) :
    plane.offset * plane.offset ≤ ∑ i : Fin n, x.coord i * x.coord i := by
  have unit : ∑ i : Fin n, plane.normal.coord i * plane.normal.coord i = 1 := by
    rw [← Vec.dot_eq_sum, h.unit]
  have value : ∑ i : Fin n, plane.normal.coord i * x.coord i = plane.offset := by
    rw [← Vec.eval_eq_sum le_rfl, on_plane]
  have squares : 0 ≤ ∑ i : Fin n, (x.coord i - plane.normal.coord i * plane.offset) *
      (x.coord i - plane.normal.coord i * plane.offset) :=
    Finset.sum_nonneg fun i _ => mul_self_nonneg _
  have expanded : ∑ i : Fin n, (x.coord i - plane.normal.coord i * plane.offset) *
      (x.coord i - plane.normal.coord i * plane.offset) =
      (∑ i : Fin n, x.coord i * x.coord i) - plane.offset * plane.offset := by
    calc ∑ i : Fin n, (x.coord i - plane.normal.coord i * plane.offset) *
          (x.coord i - plane.normal.coord i * plane.offset)
        _ = (∑ i : Fin n, x.coord i * x.coord i) -
              2 * plane.offset * (∑ i : Fin n, plane.normal.coord i * x.coord i) +
              plane.offset * plane.offset * ∑ i : Fin n, plane.normal.coord i * plane.normal.coord i := by
          rw [Finset.mul_sum, Finset.mul_sum, ← Finset.sum_sub_distrib, ← Finset.sum_add_distrib]
          exact Finset.sum_congr rfl fun i _ => by ring
        _ = (∑ i : Fin n, x.coord i * x.coord i) - plane.offset * plane.offset := by
          rw [value, unit]
          ring
  rw [expanded] at squares
  exact sub_nonneg.mp squares

theorem sum_point_eq (h : plane.Normalised) :
    ∑ i : Fin n, plane.point.coord i * plane.point.coord i = plane.offset * plane.offset := by
  have coords : ∀ i : Nat, plane.point.coord i = plane.normal.coord i * plane.offset := by
    rw [h.point_eq]
    exact Coords.get_map plane.normal.coords (· * plane.offset) (zero_mul _)
  calc ∑ i : Fin n, plane.point.coord i * plane.point.coord i
      _ = (∑ i : Fin n, plane.normal.coord i * plane.normal.coord i) * (plane.offset * plane.offset) := by
        rw [Finset.sum_mul]
        exact Finset.sum_congr rfl fun i _ => by rw [coords]; ring
      _ = plane.offset * plane.offset := by rw [← Vec.dot_eq_sum, h.unit, one_mul]

/-- The representative point is the point of the plane closest to the origin. -/
theorem distance_point_le (h : plane.Normalised) {x : Point α n} (on_plane : plane.Holds x) :
    (Point.origin : Point α n).distance plane.point ≤ (Point.origin : Point α n).distance x := by
  rw [Point.origin_distance, Point.origin_distance, h.sum_point_eq]
  exact Scalar.sqrt_le_sqrt (mul_self_nonneg _) (h.offset_mul_self_le on_plane)

end Plane.Normalised

/-- A unit normal `N` and, as the representative, `D·N`: a point of the plane, and none is closer to the origin. -/
structure Plane.Canonical (plane : Plane α n) : Prop where
  unit : plane.normal.length = 1
  point_eq : plane.point = ⟨plane.normal.coords.map (· * plane.offset)⟩
  on_plane : plane.normal.eval plane.point = plane.offset
  closest : ∀ x : Point α n, plane.normal.eval x = plane.offset →
    (Point.origin : Point α n).distance plane.point ≤ (Point.origin : Point α n).distance x

theorem Plane.Normalised.canonical {plane : Plane α n} (normalised : plane.Normalised) : plane.Canonical :=
  ⟨Vec.length_eq_one_iff.mpr normalised.unit, normalised.point_eq, normalised.holds_point,
    fun _ on_plane => normalised.distance_point_le on_plane⟩

/-! ## The component a frame divides by -/

namespace Frame

variable {frame : Frame α n}

theorem Constructed.built (constructed : frame.Constructed) : frame.Built :=
  ⟨constructed.base.normalised, constructed.framed⟩

/-- No component of the normal exceeds the one along the axis. -/
theorem Built.le_pivot (built : frame.Built) (i : Fin (n + 1)) :
    |frame.plane.normal.coord i| ≤ |frame.pivot| := by
  by_cases axis : i = frame.axis
  · rw [axis, coord_normal_axis]
  · obtain ⟨j, rfl⟩ := Fin.exists_succAbove_eq axis
    exact built.steep j

/-- A point slides along the axis at the rate of the pivot. -/
theorem dot_sweep_eq_pivot (frame : Frame α n) : frame.plane.normal.dot frame.sweep = frame.pivot := by
  rw [dot_sweep, coord_normal_axis]

/-- The axis is one of the largest components of the normal, which is not small, and so no division by it fails:
those by the pivot in the functionals and the lifted points, and those by the rate at which points slide. -/
structure WellPivoted (frame : Frame α n) : Prop where
  largest : ∀ i, |frame.plane.normal.coord i| ≤ |frame.plane.normal.coord frame.axis|
  large : 1 / Scalar.sqrt ((n + 1 : Nat) : α) ≤ |frame.plane.normal.coord frame.axis|
  pivot_ne_zero : frame.pivot ≠ 0
  rate_ne_zero : frame.plane.normal.dot frame.sweep ≠ 0

theorem Built.wellPivoted (built : frame.Built) : frame.WellPivoted where
  largest i := by
    rw [coord_normal_axis]
    -- Past the dimension a component reads as zero.
    by_cases inside : i < n + 1
    · exact built.le_pivot ⟨i, inside⟩
    · rw [Vec.coord, Coords.get_of_le _ (Nat.le_of_not_lt inside), abs_zero]
      exact abs_nonneg _
  large := by
    rw [coord_normal_axis]
    exact built.inv_sqrt_le_pivot
  pivot_ne_zero := built.pivot_ne_zero
  rate_ne_zero := by
    rw [dot_sweep_eq_pivot]
    exact built.pivot_ne_zero

end Frame

end LowDimLP
