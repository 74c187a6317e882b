import Mathlib.LinearAlgebra.InvariantBasisNumber
import Mathlib.LinearAlgebra.Matrix.NonsingularInverse
import LowDimLP.Proofs.Lists
import LowDimLP.Proofs.Geometry.Trace
import LowDimLP.Geometry.Meet
/-!
# Planes in general position

Normals separate the points when only the zero vector is orthogonal to all of them; for `n` normals of R^n
that is their linear independence (`separates_ofFn_iff`). In the chart of a plane the other normals separate
exactly if all do (`Frame.separates_pullBack_iff`), and fewer normals than coordinates never do. So
`Plane.meet`, which reduces the planes onto the first one and goes on in its chart, finds a point exactly if
there are `n` planes whose normals separate, and then it is their only common point
(`Plane.meet_eq_some_iff`).
-/

namespace LowDimLP

variable {α : Type} [ExactScalar α] {n : Nat}

/-- Only the zero vector is orthogonal to all of the normals. -/
def Separates (normals : List (Vec α n)) : Prop :=
  ∀ d : Vec α n, (∀ v ∈ normals, v.dot d = 0) → d = Vec.zero

namespace Point

theorem eq_of_displacement_eq_zero {p q : Point α n} (h : p.displacement q = Vec.zero) : p = q := by
  apply ext_coord
  intro i
  have entry := congrArg (Vec.coord · i) h
  rw [displacement, Vec.coord_ofFn, Vec.coord_zero, sub_eq_zero] at entry
  exact entry.symm

theorem eq_zero_of_translate_eq {p : Point α n} {d : Vec α n} (h : p.translate d = p) :
    d = Vec.zero := by
  apply Vec.ext_coord
  intro i
  have entry := congrArg (coord · i) h
  rwa [translate, coord_ofFn, add_eq_left, ← Vec.coord_zero i] at entry

end Point

namespace Separates

variable {normals others : List (Vec α n)}

theorem mono (separates : Separates normals) (sub : normals ⊆ others) : Separates others :=
  fun d flat => separates d fun v hv => flat v (sub hv)

/-- Points at which all normals have the same values are the same. -/
theorem eq_of_eval_eq (separates : Separates normals) {p q : Point α n}
    (same : ∀ v ∈ normals, v.eval p = v.eval q) : p = q := by
  apply Point.eq_of_displacement_eq_zero
  apply separates
  intro v hv
  rw [Vec.dot_displacement, same v hv, sub_self]

theorem of_eval (apart : ∀ p q : Point α n, (∀ v ∈ normals, v.eval p = v.eval q) → p = q) :
    Separates normals := by
  intro d flat
  apply Point.eq_zero_of_translate_eq (apart (Point.origin.translate d) Point.origin ?_)
  intro v hv
  rw [Vec.eval_translate, flat v hv, add_zero]

/-- Fewer normals than coordinates do not separate. -/
theorem le_length (separates : Separates normals) : n ≤ normals.length := by
  -- The values of the normals are a linear map, injective because they separate.
  let values : (Fin n → α) →ₗ[α] (Fin normals.length → α) :=
    { toFun f i := normals[i].dot ⟨Vector.ofFn f⟩
      map_add' f g := by
        funext i
        simp [Vec.dot_eq_sum, mul_add, Finset.sum_add_distrib]
      map_smul' s f := by
        funext i
        simp [Vec.dot_eq_sum, Finset.mul_sum, mul_left_comm] }
  have injective : Function.Injective values := by
    rw [← LinearMap.ker_eq_bot, LinearMap.ker_eq_bot']
    intro f zero
    have flat : (⟨Vector.ofFn f⟩ : Vec α n) = Vec.zero := by
      apply separates
      intro v hv
      obtain ⟨i, hi, rfl⟩ := List.mem_iff_getElem.mp hv
      exact congrFun zero ⟨i, hi⟩
    funext j
    have entry := congrArg (Vec.coord · j) flat
    rwa [Vec.coord_ofFn, Vec.coord_zero] at entry
  simpa using card_le_of_injective α values injective

/-- In a list with no more normals than coordinates, none is wasted on the zero vector. -/
theorem ne_zero (separates : Separates normals) (few : normals.length ≤ n) :
    ∀ v ∈ normals, v ≠ Vec.zero := by
  intro v hv zero
  subst zero
  obtain ⟨front, back, rfl⟩ := List.append_of_mem hv
  -- The zero vector measures nothing, so the others separate without it, and they are too few.
  have others : Separates (front ++ back) := by
    intro d flat
    apply separates
    intro u hu
    rcases List.mem_append.mp hu with left | right
    · exact flat u (List.mem_append_left _ left)
    · rcases List.mem_cons.mp right with rfl | right
      · simp [Vec.dot_eq_sum]
      · exact flat u (List.mem_append_right _ right)
  have many := others.le_length
  simp only [List.length_append, List.length_cons] at few many
  omega

end Separates

/-- For as many normals as coordinates, separation is linear independence. -/
theorem separates_ofFn_iff {normals : Fin n → Vec α n} :
    Separates (List.ofFn normals) ↔ LinearIndependent α fun i (j : Fin n) => (normals i).coord j := by
  let matrix : Matrix (Fin n) (Fin n) α := fun i j => (normals i).coord j
  have apply_matrix : ∀ (d : Vec α n) (i : Fin n),
      matrix.mulVec (fun j => d.coord j) i = (normals i).dot d := by
    intro d i
    rw [Vec.dot_eq_sum]
    rfl
  have independent : LinearIndependent α matrix.row ↔ Function.Injective matrix.mulVec := by
    rw [Matrix.linearIndependent_rows_iff_isUnit, Matrix.mulVec_injective_iff_isUnit]
  refine Iff.trans ?_ independent.symm
  rw [← Matrix.coe_mulVecLin, ← LinearMap.ker_eq_bot, LinearMap.ker_eq_bot']
  constructor
  · intro separates f zero
    have flat : (⟨Vector.ofFn f⟩ : Vec α n) = Vec.zero := by
      apply separates
      intro v hv
      obtain ⟨i, rfl⟩ := List.mem_ofFn.mp hv
      rw [← apply_matrix]
      simpa using congrFun zero i
    funext j
    have entry := congrArg (Vec.coord · j) flat
    rwa [Vec.coord_ofFn, Vec.coord_zero] at entry
  · intro injective d flat
    apply Vec.ext_coord
    intro j
    rw [Vec.coord_zero]
    refine congrFun (injective (fun j => d.coord j) ?_) j
    funext i
    exact (apply_matrix d i).trans (flat _ (List.mem_ofFn.mpr ⟨i, rfl⟩))

namespace Frame

variable {frame : Frame α n}

theorem lift_injective (frame : Frame α n) : Function.Injective frame.lift := by
  intro p q same
  rw [← dropCoord_lift frame p, same, dropCoord_lift]

/-- The chart sees every vector along the plane, and sees it as the normals measure it. -/
theorem separates_pullBack_iff (pivot : frame.pivot ≠ 0) {normals : List (Vec α (n + 1))} :
    Separates (frame.plane.normal :: normals) ↔ Separates (normals.map frame.pullBack) := by
  constructor
  · intro separates
    refine Separates.of_eval fun p q same => frame.lift_injective (separates.eq_of_eval_eq ?_)
    refine List.forall_mem_cons.mpr ⟨?_, fun v hv => ?_⟩
    · rw [plane_eval_lift pivot, plane_eval_lift pivot]
    · rw [eval_lift pivot le_rfl, eval_lift pivot le_rfl, same _ (List.mem_map_of_mem hv)]
  · intro separates d flat
    obtain ⟨along, others⟩ := List.forall_mem_cons.mp flat
    have on_plane : frame.plane.normal.eval ((frame.lift Point.origin).translate d) =
        frame.plane.offset := by
      rw [Vec.eval_translate, along, add_zero, plane_eval_lift pivot]
    obtain ⟨y, lifted⟩ := exists_lift_eq pivot on_plane
    have still : y = Point.origin := by
      apply separates.eq_of_eval_eq
      intro u hu
      obtain ⟨v, hv, rfl⟩ := List.mem_map.mp hu
      have same : v.eval (frame.lift y) = v.eval (frame.lift Point.origin) := by
        rw [lifted, Vec.eval_translate, others v hv, add_zero]
      rwa [eval_lift pivot le_rfl, eval_lift pivot le_rfl, add_left_inj] at same
    rw [still] at lifted
    exact Point.eq_zero_of_translate_eq lifted.symm

end Frame

/-! ## The common point -/

namespace Plane

variable {tol : Tolerance α}

section Reduced

variable {frame : Frame α n} {planes : List (Plane α (n + 1))} {reduced : List (Plane α n)}

/-- What reducing a list of planes onto the frame's plane preserves. -/
structure ReductionOf (frame : Frame α n) (planes : List (Plane α (n + 1)))
    (reduced : List (Plane α n)) : Prop where
  length_eq : reduced.length = planes.length
  normalised : ∀ r ∈ reduced, r.Normalised
  holds_iff : ∀ q, (∀ r ∈ reduced, r.Holds q) ↔ ∀ p ∈ planes, p.Holds (frame.lift q)
  separates_iff : Separates (reduced.map Plane.normal) ↔
    Separates ((planes.map Plane.normal).map frame.pullBack)

theorem holds_iff_signedDistance {plane : Plane α n} {x : Point α n} :
    plane.Holds x ↔ plane.signedDistance x = 0 := by
  rw [Holds, signedDistance, sub_eq_zero]

theorem reductionOf_mapM (pivot : frame.pivot ≠ 0)
    (all : planes.mapM (fun plane => plane.reduce frame tol) = some reduced) :
    ReductionOf frame planes reduced := by
  have related := mapM_eq_some_iff.mp all
  refine ⟨related.length_eq.symm, ?_, fun q => ?_, ?_⟩
  · refine (forall_mem_iff_of_forall₂ related fun p r reduces => ?_).mp fun _ _ => trivial
    exact iff_of_true trivial (reduce_eq_some pivot reduces).2.1
  · refine (forall_mem_iff_of_forall₂ related fun p r reduces => ?_).symm
    obtain ⟨nonzero, -, -, distances⟩ := reduce_eq_some pivot reduces
    rw [holds_iff_signedDistance, holds_iff_signedDistance, distances, mul_eq_zero]
    exact or_iff_right (Vec.length_pos nonzero).ne'
  · refine forall_congr' fun d => imp_congr_left ?_
    rw [List.forall_mem_map, List.map_map, List.forall_mem_map]
    refine (forall_mem_iff_of_forall₂ related fun p r reduces => ?_).symm
    obtain ⟨nonzero, -, dots, -⟩ := reduce_eq_some pivot reduces
    rw [Function.comp_apply, dots, mul_eq_zero]
    exact or_iff_right (Vec.length_pos nonzero).ne'

/-- Planes that are few and separate in the chart all have a trace there. -/
theorem exists_reduction (det : tol.det = 0) (few : planes.length ≤ n)
    (separates : Separates ((planes.map Plane.normal).map frame.pullBack)) :
    ∃ reduced, planes.mapM (fun plane => plane.reduce frame tol) = some reduced := by
  apply exists_mapM_eq_some
  intro p hp
  have nonzero : frame.pullBack p.normal ≠ Vec.zero :=
    separates.ne_zero (by simpa using few) _ (List.mem_map_of_mem (List.mem_map_of_mem hp))
  exact Option.ne_none_iff_exists'.mp fun none => nonzero (pullBack_eq_zero_of_reduce det none)

end Reduced

theorem separates_line {plane : Plane α 1} (normalised : plane.Normalised) :
    Separates [plane.normal] := by
  intro d flat
  have unit := normalised.unit
  rw [Vec.dot_line] at unit
  have flat : plane.normal.coord 0 * d.coord 0 = 0 := by
    rw [← Vec.dot_line]
    exact flat _ List.mem_cons_self
  apply Vec.ext_coord
  intro i
  obtain rfl : i = 0 := Subsingleton.elim i 0
  rw [Vec.coord_zero]
  exact (mul_eq_zero.mp flat).resolve_left (left_ne_zero_of_mul_eq_one unit)

/-- The planes meet exactly if there are as many as dimensions and their normals separate. The induction
is the recursion of `meet`: onto the first plane, and on in its chart. -/
theorem meet_eq_some_iff (det : tol.det = 0) {planes : List (Plane α n)}
    (normalised : ∀ p ∈ planes, p.Normalised) {v : Point α n} :
    meet tol planes = some v ↔ 0 < n ∧ planes.length = n ∧
      Separates (planes.map Plane.normal) ∧ ∀ p ∈ planes, p.Holds v := by
  fun_induction meet tol planes with
  | case1 => simp
  | case2 => simp
  | case3 first rest alone =>
    obtain rfl := List.isEmpty_iff.mp alone
    have unit : first.Normalised := normalised first List.mem_cons_self
    rw [Option.some_inj]
    constructor
    · intro same
      subst same
      exact ⟨one_pos, rfl, separates_line unit, by simpa using unit.holds_point⟩
    · intro ⟨_, _, _, holds⟩
      apply (separates_line unit).eq_of_eval_eq
      simpa using unit.holds_point.trans (holds first List.mem_cons_self).symm
  | case4 first rest others =>
    refine iff_of_false (by simp) ?_
    intro ⟨_, length, _⟩
    exact others (List.isEmpty_iff.mpr (by simpa using length))
  | case5 n first rest length frame ih =>
    obtain ⟨unit, units⟩ := List.forall_mem_cons.mp normalised
    have pivot : frame.pivot ≠ 0 := Frame.pivot_on_ne_zero unit.normal_ne_zero
    -- The chart of the first plane has one dimension less and one plane less.
    simp only [Option.bind_eq_bind, Option.bind_eq_some_iff, Option.pure_def, Option.some_inj]
    constructor
    · intro met
      obtain ⟨reduced, all, q, meets, rfl⟩ := met
      have reduction := reductionOf_mapM pivot all
      obtain ⟨-, -, separates, holds⟩ := (ih reduced reduction.normalised).mp meets
      refine ⟨Nat.succ_pos _, by rw [List.length_cons, length], ?_, ?_⟩
      · exact (Frame.separates_pullBack_iff pivot).mpr (reduction.separates_iff.mp separates)
      · exact List.forall_mem_cons.mpr
          ⟨Frame.plane_eval_lift pivot q, (reduction.holds_iff q).mp holds⟩
    · intro ⟨_, _, separates, holds⟩
      obtain ⟨on_first, on_rest⟩ := List.forall_mem_cons.mp holds
      have charted := (Frame.separates_pullBack_iff pivot).mp separates
      obtain ⟨reduced, all⟩ := exists_reduction det length.le charted
      obtain ⟨q, rfl⟩ := Frame.exists_lift_eq pivot on_first
      have reduction := reductionOf_mapM pivot all
      refine ⟨reduced, all, q, ?_, rfl⟩
      refine (ih reduced reduction.normalised).mpr ⟨Nat.succ_pos _, ?_, ?_, ?_⟩
      · rw [reduction.length_eq, length]
      · exact reduction.separates_iff.mpr charted
      · exact (reduction.holds_iff q).mpr on_rest
  | case6 n first rest length =>
    refine iff_of_false (by simp) ?_
    intro ⟨_, total, _⟩
    exact length (by simpa using total)

end Plane

end LowDimLP
