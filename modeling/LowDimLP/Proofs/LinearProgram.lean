import LowDimLP.Proofs.Geometry.Linear
import LowDimLP.Geometry.HalfSpace
/-!
# Linear programs

What a solver's answer is measured against, said without the solver: the points that lie in every
half-space, the optima among them, and the directions along which one may walk for ever while the
objective falls. Two geometric arguments carry the solver. A feasible point and a violated one have a
boundary point of the violated half-space between them (`exists_crossing`), and a walk along a
direction that a new half-space stops ends on the boundary of that half-space (`exists_stop`).
-/

namespace LowDimLP

universe u

variable {α : Type u} [ExactScalar α] {n : Nat}

/-- The point lies on the plane. -/
def Plane.Holds (plane : Plane α n) (x : Point α n) : Prop := plane.normal.eval x = plane.offset

/-- As every constructor leaves a plane: a unit normal, and the representative point on it. -/
structure Plane.Normalised (plane : Plane α n) : Prop where
  unit : plane.normal.dot plane.normal = 1
  point_eq : plane.point = ⟨plane.normal.coords.map (· * plane.offset)⟩

namespace HalfSpace

/-- The point lies in the half-space. -/
def Holds (h : HalfSpace α n) (x : Point α n) : Prop :=
  h.boundary.normal.eval x ≤ h.boundary.offset

/-- The boundary is normalised. -/
def Normalised (h : HalfSpace α n) : Prop := h.boundary.Normalised

theorem containsWithin_iff (h : HalfSpace α n) (x : Point α n) (eps : α) :
    h.containsWithin x eps = true ↔ h.boundary.normal.eval x ≤ h.boundary.offset + eps := by
  rw [containsWithin, decide_eq_true_iff, Plane.signedDistance, sub_le_iff_le_add']

@[simp] theorem containsWithin_zero_iff {h : HalfSpace α n} {x : Point α n} :
    h.containsWithin x 0 = true ↔ h.Holds x := by
  rw [containsWithin_iff, add_zero, Holds]

theorem holds_of_boundary {h : HalfSpace α n} {x : Point α n} (hx : h.boundary.Holds x) :
    h.Holds x := le_of_eq hx

end HalfSpace

/-! ## Normalised planes -/

namespace Plane.Normalised

variable {plane : Plane α n}

theorem normal_ne_zero (h : plane.Normalised) : plane.normal ≠ Vec.zero := by
  intro zero
  have unit := h.unit
  rw [Vec.dot_self_eq_zero.mpr zero] at unit
  exact zero_ne_one unit

theorem eval_point (h : plane.Normalised) (v : Vec α n) :
    v.eval plane.point = v.dot plane.normal * plane.offset := by
  rw [h.point_eq, Vec.eval_multiple]

theorem holds_point (h : plane.Normalised) : plane.Holds plane.point := by
  rw [Plane.Holds, h.eval_point, h.unit, one_mul]

theorem throughOrigin (h : plane.Normalised) : plane.throughOrigin.Normalised where
  unit := h.unit
  point_eq := by
    apply Point.ext_coord
    intro i
    simp [Plane.throughOrigin, Point.origin, Point.coord]

end Plane.Normalised

namespace Plane

/-- What `ofEquation` makes of a normal that is not zero. -/
theorem ofEquation_eq_ok {normal : Vec α n} (h : normal ≠ Vec.zero) (offset : α) :
    ofEquation normal offset = .ok ⟨normal.scaled (1 / normal.length), offset / normal.length,
      ⟨(normal.scaled (1 / normal.length)).coords.map (· * (offset / normal.length))⟩⟩ := by
  simp [ofEquation, Vec.length_pos h]

theorem ofEquation_zero (offset : α) :
    ofEquation (Vec.zero : Vec α n) offset = .error .degenerateNormal := by
  simp [ofEquation, Vec.length_le_zero.mpr]

theorem normalised_of_ofEquation {normal : Vec α n} {offset : α} {plane : Plane α n}
    (h : ofEquation normal offset = .ok plane) : plane.Normalised := by
  by_cases zero : normal = Vec.zero
  · rw [zero, ofEquation_zero] at h
    cases h
  · rw [ofEquation_eq_ok zero] at h
    cases h
    have positive := (Vec.length_pos zero).ne'
    refine ⟨?_, rfl⟩
    rw [Vec.dot_scaled, Vec.scaled_dot, ← Vec.length_mul_self]
    field_simp

end Plane

/-- Every half-space built from an inequality is normalised. -/
theorem HalfSpace.normalised_of_ofInequality {normal : Vec α n} {offset : α} {h : HalfSpace α n}
    (built : ofInequality normal offset = .ok h) : h.Normalised := by
  rw [ofInequality] at built
  cases equation : Plane.ofEquation normal offset with
  | error e => rw [equation] at built; cases built
  | ok plane =>
    rw [equation] at built
    cases built
    exact Plane.normalised_of_ofEquation equation

/-- The half-space that an inequality with a unit normal builds: nothing is rescaled. -/
def HalfSpace.ofUnit (normal : Vec α n) (offset : α) : HalfSpace α n :=
  ⟨⟨normal, offset, ⟨normal.coords.map (· * offset)⟩⟩⟩

theorem HalfSpace.normalised_ofUnit {normal : Vec α n} (unit : normal.dot normal = 1) (offset : α) :
    (ofUnit normal offset).Normalised :=
  ⟨unit, rfl⟩

theorem HalfSpace.ofInequality_unit {normal : Vec α n} (unit : normal.dot normal = 1) (offset : α) :
    ofInequality normal offset = .ok (ofUnit normal offset) := by
  have nonzero : normal ≠ Vec.zero := by
    intro zero
    rw [Vec.dot_self_eq_zero.mpr zero] at unit
    exact zero_ne_one unit
  have unscaled : normal.scaled 1 = normal := Vec.ext_coord fun i => by rw [Vec.coord_scaled, mul_one]
  rw [ofInequality, Plane.ofEquation_eq_ok nonzero, Vec.length_eq_one_iff.mpr unit, div_one, div_one,
    unscaled]
  rfl

/-- The inequality of a normalised half-space builds the half-space again. -/
theorem HalfSpace.ofInequality_of_normalised {h : HalfSpace α n} (normalised : h.Normalised) :
    ofInequality h.boundary.normal h.boundary.offset = .ok h := by
  rw [ofInequality_unit normalised.unit, ofUnit, ← normalised.point_eq]

/-- Only such half-spaces are normalised. -/
theorem HalfSpace.normalised_iff_built {h : HalfSpace α n} :
    h.Normalised ↔ ∃ normal offset, ofInequality normal offset = .ok h := by
  constructor
  · intro normalised
    exact ⟨_, _, ofInequality_of_normalised normalised⟩
  · intro ⟨normal, offset, built⟩
    exact normalised_of_ofInequality built

/-! ## Feasible points, optima and descent -/

/-- The point lies in every half-space. -/
def Feasible (halfSpaces : List (HalfSpace α n)) (x : Point α n) : Prop :=
  ∀ h ∈ halfSpaces, h.Holds x

/-- A feasible point whose value no feasible point undercuts. -/
structure IsOptimal (halfSpaces : List (HalfSpace α n)) (direction : Vec α n) (p : Point α n) :
    Prop where
  feasible : Feasible halfSpaces p
  le_eval : ∀ x, Feasible halfSpaces x → direction.eval p ≤ direction.eval x

/-- The objective has a lower bound on the feasible points. -/
def BoundedBelow (halfSpaces : List (HalfSpace α n)) (direction : Vec α n) : Prop :=
  ∃ bound, ∀ x, Feasible halfSpaces x → bound ≤ direction.eval x

/-- A walk along `d` leaves no half-space, and the objective falls on it. -/
structure IsDescent (halfSpaces : List (HalfSpace α n)) (direction d : Vec α n) : Prop where
  stays : ∀ h ∈ halfSpaces, h.boundary.normal.dot d ≤ 0
  falls : direction.dot d < 0

/-- Some walk leaves no half-space while the objective falls. -/
def HasDescent (halfSpaces : List (HalfSpace α n)) (direction : Vec α n) : Prop :=
  ∃ d, IsDescent halfSpaces direction d

section

variable {halfSpaces : List (HalfSpace α n)} {direction d : Vec α n} {h : HalfSpace α n}
  {p x : Point α n}

theorem feasible_append : Feasible (halfSpaces ++ [h]) x ↔ Feasible halfSpaces x ∧ h.Holds x := by
  simp [Feasible, or_imp, forall_and]

theorem feasible_cons : Feasible (h :: halfSpaces) x ↔ h.Holds x ∧ Feasible halfSpaces x := by
  simp [Feasible]

theorem feasible_perm {others : List (HalfSpace α n)} (perm : halfSpaces.Perm others) :
    Feasible halfSpaces x ↔ Feasible others x := by
  simp [Feasible, perm.mem_iff]

theorem hasDescent_perm {others : List (HalfSpace α n)} (perm : halfSpaces.Perm others) :
    HasDescent halfSpaces direction ↔ HasDescent others direction := by
  constructor
  · intro ⟨d, stays, falls⟩
    exact ⟨d, fun h hh => stays h (perm.mem_iff.mpr hh), falls⟩
  · intro ⟨d, stays, falls⟩
    exact ⟨d, fun h hh => stays h (perm.mem_iff.mp hh), falls⟩

theorem hasDescent_append_iff {others : List (HalfSpace α n)} :
    HasDescent (halfSpaces ++ others) direction ↔ ∃ d, direction.dot d < 0 ∧
      (∀ h ∈ halfSpaces, h.boundary.normal.dot d ≤ 0) ∧ ∀ h ∈ others, h.boundary.normal.dot d ≤ 0 := by
  constructor
  · intro ⟨d, stays, falls⟩
    exact ⟨d, falls, fun h hh => stays h (List.mem_append_left _ hh),
      fun h hh => stays h (List.mem_append_right _ hh)⟩
  · intro ⟨d, falls, inside, beyond⟩
    exact ⟨d, fun h hh => (List.mem_append.mp hh).elim (inside h) (beyond h), falls⟩

theorem IsOptimal.perm {others : List (HalfSpace α n)} (optimal : IsOptimal halfSpaces direction p)
    (perm : halfSpaces.Perm others) : IsOptimal others direction p where
  feasible := (feasible_perm perm).mp optimal.feasible
  le_eval x hx := optimal.le_eval x ((feasible_perm perm).mpr hx)

theorem BoundedBelow.perm {others : List (HalfSpace α n)} (bounded : BoundedBelow halfSpaces direction)
    (perm : halfSpaces.Perm others) : BoundedBelow others direction := by
  obtain ⟨bound, above⟩ := bounded
  exact ⟨bound, fun x hx => above x ((feasible_perm perm).mpr hx)⟩

theorem feasible_walk (hx : Feasible halfSpaces x)
    (stays : ∀ h ∈ halfSpaces, h.boundary.normal.dot d ≤ 0) {t : α} (ht : 0 ≤ t) :
    Feasible halfSpaces (x.translate (d.scaled t)) := by
  intro h hh
  have start : h.boundary.normal.eval x ≤ h.boundary.offset := hx h hh
  have drift : h.boundary.normal.dot d * t ≤ 0 := mul_nonpos_of_nonpos_of_nonneg (stays h hh) ht
  rw [HalfSpace.Holds, Vec.eval_translate, Vec.dot_scaled]
  linarith

/-- A walk on which the objective falls undercuts every bound. -/
theorem exists_walk_lt (falls : direction.dot d < 0) (x : Point α n) (bound : α) :
    ∃ t, 0 ≤ t ∧ direction.eval (x.translate (d.scaled t)) < bound := by
  let t := max 0 ((direction.eval x - bound + 1) / -direction.dot d)
  refine ⟨t, le_max_left _ _, ?_⟩
  have far : direction.eval x - bound + 1 ≤ t * -direction.dot d :=
    (div_le_iff₀ (neg_pos.mpr falls)).mp (le_max_right _ _)
  rw [Vec.eval_translate, Vec.dot_scaled]
  linarith

theorem HasDescent.exists_lt (descent : HasDescent halfSpaces direction)
    (hx : Feasible halfSpaces x) (bound : α) :
    ∃ y, Feasible halfSpaces y ∧ direction.eval y < bound := by
  obtain ⟨d, stays, falls⟩ := descent
  obtain ⟨t, ahead, below⟩ := exists_walk_lt falls x bound
  exact ⟨_, feasible_walk hx stays ahead, below⟩

theorem BoundedBelow.not_hasDescent (bounded : BoundedBelow halfSpaces direction)
    (hx : Feasible halfSpaces x) : ¬HasDescent halfSpaces direction := by
  intro descent
  obtain ⟨bound, above⟩ := bounded
  obtain ⟨y, hy, below⟩ := descent.exists_lt hx bound
  exact absurd (above y hy) (not_le.mpr below)

theorem IsOptimal.not_hasDescent (optimal : IsOptimal halfSpaces direction p) :
    ¬HasDescent halfSpaces direction :=
  BoundedBelow.not_hasDescent ⟨direction.eval p, optimal.le_eval⟩ optimal.feasible

/-- Between a point outside a half-space and one inside it lies a boundary point, at which every
functional has a value between its values at the two. -/
theorem exists_crossing (hp : Feasible halfSpaces p) (outside : ¬h.Holds p)
    (hx : Feasible halfSpaces x) (inside : h.Holds x) :
    ∃ y, Feasible halfSpaces y ∧ h.boundary.Holds y ∧
      ∀ v : Vec α n, v.eval p ≤ v.eval x → v.eval y ≤ v.eval x := by
  have outside : h.boundary.offset < h.boundary.normal.eval p := not_le.mp outside
  have inside : h.boundary.normal.eval x ≤ h.boundary.offset := inside
  have span : 0 < h.boundary.normal.eval p - h.boundary.normal.eval x := by linarith
  let t := (h.boundary.normal.eval p - h.boundary.offset) /
    (h.boundary.normal.eval p - h.boundary.normal.eval x)
  have t_nonneg : 0 ≤ t := div_nonneg (by linarith) span.le
  have t_le_one : t ≤ 1 := (div_le_one span).mpr (by linarith)
  refine ⟨p.toward x t, ?_, ?_, ?_⟩
  · intro g hg
    have at_p : g.boundary.normal.eval p ≤ g.boundary.offset := hp g hg
    have at_x : g.boundary.normal.eval x ≤ g.boundary.offset := hx g hg
    rw [HalfSpace.Holds, Vec.eval_toward]
    -- On the segment the value is a mean of the values at its ends.
    calc g.boundary.normal.eval p + (g.boundary.normal.eval x - g.boundary.normal.eval p) * t
        _ = (1 - t) * g.boundary.normal.eval p + t * g.boundary.normal.eval x := by ring
        _ ≤ (1 - t) * g.boundary.offset + t * g.boundary.offset :=
          add_le_add (mul_le_mul_of_nonneg_left at_p (sub_nonneg.mpr t_le_one))
            (mul_le_mul_of_nonneg_left at_x t_nonneg)
        _ = g.boundary.offset := by ring
  · rw [Plane.Holds, Vec.eval_toward]
    have share : t * (h.boundary.normal.eval p - h.boundary.normal.eval x) =
        h.boundary.normal.eval p - h.boundary.offset := div_mul_cancel₀ _ span.ne'
    linarith
  · intro v rises
    rw [Vec.eval_toward]
    calc v.eval p + (v.eval x - v.eval p) * t
        _ ≤ v.eval p + (v.eval x - v.eval p) * 1 :=
          add_le_add_right (mul_le_mul_of_nonneg_left t_le_one (sub_nonneg.mpr rises)) _
        _ = v.eval x := by ring

/-- A descent that a new half-space stops ends on its boundary, from wherever it starts, with a value
no larger than at the start. -/
theorem exists_stop (descent : IsDescent halfSpaces direction d)
    (stopped : 0 < h.boundary.normal.dot d) (hx : Feasible halfSpaces x) (inside : h.Holds x) :
    ∃ y, Feasible halfSpaces y ∧ h.boundary.Holds y ∧ direction.eval y ≤ direction.eval x := by
  have inside : h.boundary.normal.eval x ≤ h.boundary.offset := inside
  let t := (h.boundary.offset - h.boundary.normal.eval x) / h.boundary.normal.dot d
  have t_nonneg : 0 ≤ t := div_nonneg (by linarith) stopped.le
  refine ⟨x.translate (d.scaled t), feasible_walk hx descent.stays t_nonneg, ?_, ?_⟩
  · rw [Plane.Holds, Vec.eval_translate, Vec.dot_scaled, mul_div_cancel₀ _ stopped.ne']
    ring
  · rw [Vec.eval_translate, Vec.dot_scaled]
    exact add_le_of_nonpos_right (mul_nonpos_of_nonpos_of_nonneg descent.falls.le t_nonneg)

/-- A descent of the half-spaces that is none with `h` added is stopped by `h`. -/
theorem IsDescent.stopped (descent : IsDescent halfSpaces direction d)
    (bounded : ¬HasDescent (halfSpaces ++ [h]) direction) : 0 < h.boundary.normal.dot d := by
  by_contra free
  apply bounded
  refine ⟨d, ?_, descent.falls⟩
  intro g hg
  rcases List.mem_append.mp hg with old | new
  · exact descent.stays g old
  · rw [List.mem_singleton.mp new]
    exact not_lt.mp free

/-- The boundary point of a lone half-space is optimal as soon as nothing descends. -/
theorem isOptimal_singleton (normalised : h.Normalised) (bounded : ¬HasDescent [h] direction) :
    IsOptimal [h] direction h.boundary.point := by
  refine ⟨?_, ?_⟩
  · intro g hg
    rw [List.mem_singleton.mp hg]
    exact HalfSpace.holds_of_boundary normalised.holds_point
  · intro x hx
    by_contra less
    apply bounded
    refine ⟨h.boundary.point.displacement x, ?_, ?_⟩
    · intro g hg
      have inside : h.boundary.normal.eval x ≤ h.boundary.offset := hx h (by simp)
      have base : h.boundary.normal.eval h.boundary.point = h.boundary.offset :=
        normalised.holds_point
      rw [List.mem_singleton.mp hg, Vec.dot_displacement, base]
      exact sub_nonpos.mpr inside
    · rw [Vec.dot_displacement]
      exact sub_neg.mpr (not_le.mp less)

end

end LowDimLP
