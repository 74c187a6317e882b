import Mathlib.Order.Bounds.Basic
import LowDimLP.Proofs.Solver.Descent
import LowDimLP.Proofs.Solver.Insertion
/-!
# The line

On the line a half-space bounds the coordinate from one side, by its boundary point. The ends of the range
are the least of the upper bounds and the greatest of the lower ones, whatever the order of insertion
(`Interval.Spans`, `tighten_spans`), and they decide feasibility and the optimum. Every run of the line
passes through such ranges (`LineState`), with any tolerances, and ends in one of the whole list, since ends that
cross once stay crossed (`Level.solveLine_ensures`); with no tolerances, its answer is sound.
-/

namespace LowDimLP

variable {σ α : Type}

/-! ## Half-spaces of the line -/

namespace HalfSpace

/-- The half-space bounds the coordinate from above. -/
def BoundsAbove [Scalar α] (h : HalfSpace α 1) : Prop := 0 < h.boundary.normal.coord 0

/-- Where the half-space ends. -/
def bound [Scalar α] (h : HalfSpace α 1) : α := h.boundary.point.coord 0

variable [ExactScalar α] {h : HalfSpace α 1}

theorem bound_eq (normalised : h.Normalised) :
    h.bound = h.boundary.normal.coord 0 * h.boundary.offset := by
  rw [bound, normalised.point_eq]
  exact Coords.get_map _ (· * h.boundary.offset) (zero_mul _) 0

theorem normal_of_boundsAbove (normalised : h.Normalised) (above : h.BoundsAbove) :
    h.boundary.normal.coord 0 = 1 := by
  have unit := normalised.unit
  rw [Vec.dot_line, mul_self_eq_one_iff] at unit
  refine unit.resolve_right fun negative => ?_
  rw [BoundsAbove, negative] at above
  linarith

theorem normal_of_not_boundsAbove (normalised : h.Normalised) (below : ¬h.BoundsAbove) :
    h.boundary.normal.coord 0 = -1 := by
  have unit := normalised.unit
  rw [Vec.dot_line, mul_self_eq_one_iff] at unit
  refine unit.resolve_left fun positive => below ?_
  rw [BoundsAbove, positive]
  exact one_pos

theorem holds_iff_le_bound (normalised : h.Normalised) (above : h.BoundsAbove) (x : Point α 1) :
    h.Holds x ↔ x.coord 0 ≤ h.bound := by
  rw [Holds, Vec.eval_line, bound_eq normalised, normal_of_boundsAbove normalised above, one_mul,
    one_mul]

theorem holds_iff_bound_le (normalised : h.Normalised) (below : ¬h.BoundsAbove) (x : Point α 1) :
    h.Holds x ↔ h.bound ≤ x.coord 0 := by
  rw [Holds, Vec.eval_line, bound_eq normalised, normal_of_not_boundsAbove normalised below,
    neg_one_mul, neg_one_mul, neg_le]

end HalfSpace

/-- The bounds that come from the half-spaces of one side. -/
def boundsOf [Scalar α] (side : HalfSpace α 1 → Prop) (halfSpaces : List (HalfSpace α 1)) : Set α :=
  {b | ∃ h ∈ halfSpaces, side h ∧ h.bound = b}

section Bounds

variable [Scalar α] {side : HalfSpace α 1 → Prop} {halfSpaces : List (HalfSpace α 1)}
  {h : HalfSpace α 1}

theorem boundsOf_append_self (of_side : side h) :
    boundsOf side (halfSpaces ++ [h]) = insert h.bound (boundsOf side halfSpaces) := by
  ext b
  simp only [boundsOf, Set.mem_ofPred_eq, Set.mem_insert_iff, List.mem_append, List.mem_singleton]
  constructor
  · intro is_bound
    obtain ⟨g, old | rfl, of_side, rfl⟩ := is_bound
    · exact .inr ⟨g, old, of_side, rfl⟩
    · exact .inl rfl
  · intro is_bound
    obtain rfl | ⟨g, old, of_side, rfl⟩ := is_bound
    · exact ⟨h, .inr rfl, of_side, rfl⟩
    · exact ⟨g, .inl old, of_side, rfl⟩

theorem boundsOf_append_other (other_side : ¬side h) :
    boundsOf side (halfSpaces ++ [h]) = boundsOf side halfSpaces := by
  ext b
  simp only [boundsOf, Set.mem_ofPred_eq, List.mem_append, List.mem_singleton]
  constructor
  · intro is_bound
    obtain ⟨g, old | rfl, of_side, rfl⟩ := is_bound
    · exact ⟨g, old, of_side, rfl⟩
    · exact absurd of_side other_side
  · intro is_bound
    obtain ⟨g, old, of_side, rfl⟩ := is_bound
    exact ⟨g, .inl old, of_side, rfl⟩

theorem not_side_of_boundsOf_eq_empty (empty : boundsOf side halfSpaces = ∅) (hh : h ∈ halfSpaces) :
    ¬side h := by
  intro of_side
  have bound : h.bound ∈ boundsOf side halfSpaces := ⟨h, hh, of_side, rfl⟩
  rw [empty] at bound
  exact bound

theorem boundsOf_perm {others : List (HalfSpace α 1)} (perm : halfSpaces.Perm others) :
    boundsOf side halfSpaces = boundsOf side others := by
  simp only [boundsOf, perm.mem_iff]

end Bounds

section Crossing

variable [OrderedScalar α] {halfSpaces : List (HalfSpace α 1)}

/-- Some lower bound lies above some upper bound by more than the slack. -/
def Crosses (slack : α) (halfSpaces : List (HalfSpace α 1)) : Prop :=
  ∃ g ∈ halfSpaces, ∃ h ∈ halfSpaces, g.BoundsAbove ∧ ¬h.BoundsAbove ∧ g.bound + slack < h.bound

theorem Crosses.mono {others : List (HalfSpace α 1)} {slack : α} (crosses : Crosses slack halfSpaces)
    (sub : halfSpaces ⊆ others) : Crosses slack others := by
  obtain ⟨g, hg, h, hh, rest⟩ := crosses
  exact ⟨g, sub hg, h, sub hh, rest⟩

end Crossing

section Walks

variable [ExactScalar α] {halfSpaces : List (HalfSpace α 1)}

theorem feasible_line_iff (normalised : ∀ h ∈ halfSpaces, h.Normalised) (x : Point α 1) :
    Feasible halfSpaces x ↔
      x.coord 0 ∈ lowerBounds (boundsOf HalfSpace.BoundsAbove halfSpaces) ∧
        x.coord 0 ∈ upperBounds (boundsOf (¬HalfSpace.BoundsAbove ·) halfSpaces) := by
  constructor
  · intro feasible
    constructor
    · intro b is_bound
      obtain ⟨h, hh, above, rfl⟩ := is_bound
      exact (h.holds_iff_le_bound (normalised h hh) above x).mp (feasible h hh)
    · intro b is_bound
      obtain ⟨h, hh, below, rfl⟩ := is_bound
      exact (h.holds_iff_bound_le (normalised h hh) below x).mp (feasible h hh)
  · intro ⟨at_most, at_least⟩ h hh
    by_cases above : h.BoundsAbove
    · exact (h.holds_iff_le_bound (normalised h hh) above x).mpr (at_most ⟨h, hh, above, rfl⟩)
    · exact (h.holds_iff_bound_le (normalised h hh) above x).mpr (at_least ⟨h, hh, above, rfl⟩)

/-- A walk of the line is a signed speed. -/
theorem hasDescent_line {direction : Vec α 1} (speed : α)
    (stays : ∀ h ∈ halfSpaces, h.boundary.normal.coord 0 * speed ≤ 0)
    (falls : direction.coord 0 * speed < 0) : HasDescent halfSpaces direction := by
  have walk : ∀ v : Vec α 1, v.dot ⟨Vector.ofFn fun _ => speed⟩ = v.coord 0 * speed := by
    intro v
    rw [Vec.dot_line]
    exact congrArg _ (Vec.coord_ofFn _ 0)
  refine ⟨⟨Vector.ofFn fun _ => speed⟩, ?_, ?_⟩
  · intro h hh
    rw [walk]
    exact stays h hh
  · rw [walk]
    exact falls

end Walks

/-! ## Ranges -/

namespace Interval

/-- The end is the extreme bound of its side, and missing when there is no bound. -/
def IsEnd (extreme : Set α → α → Prop) (bounds : Set α) : Option α → Prop
  | none => bounds = ∅
  | some b => extreme bounds b

section Ordered

variable [OrderedScalar α] {range : Interval α} {halfSpaces : List (HalfSpace α 1)}

theorem isEnd_lowest {bounds : Set α} {edge : Option α} (is_edge : IsEnd IsLeast bounds edge) (b : α) :
    IsEnd IsLeast (Insert.insert b bounds) (lowest edge b) := by
  cases edge with
  | none =>
    obtain rfl : bounds = ∅ := is_edge
    simp [lowest, IsEnd, isLeast_singleton]
  | some a =>
    have least : (if b ≤ a then b else a) = min b a := by
      split
      · next le => exact (min_eq_left le).symm
      · next gt => exact (min_eq_right (not_le.mp gt).le).symm
    rw [lowest, least]
    exact IsLeast.insert b is_edge

theorem isEnd_highest {bounds : Set α} {edge : Option α} (is_edge : IsEnd IsGreatest bounds edge)
    (b : α) : IsEnd IsGreatest (Insert.insert b bounds) (highest edge b) := by
  cases edge with
  | none =>
    obtain rfl : bounds = ∅ := is_edge
    simp [highest, IsEnd, isGreatest_singleton]
  | some a =>
    have greatest : (if a ≤ b then b else a) = max b a := by
      split
      · next le => exact (max_eq_left le).symm
      · next gt => exact (max_eq_right (not_le.mp gt).le).symm
    rw [highest, greatest]
    exact IsGreatest.insert b is_edge

/-- The range has the extreme bounds of the half-spaces as its ends. -/
structure Spans (range : Interval α) (halfSpaces : List (HalfSpace α 1)) : Prop where
  upper : IsEnd IsLeast (boundsOf HalfSpace.BoundsAbove halfSpaces) range.upper
  lower : IsEnd IsGreatest (boundsOf (¬HalfSpace.BoundsAbove ·) halfSpaces) range.lower

theorem line_spans : (line : Interval α).Spans [] where
  upper := by simp [line, IsEnd, boundsOf]
  lower := by simp [line, IsEnd, boundsOf]

theorem tighten_spans (spans : range.Spans halfSpaces) (h : HalfSpace α 1) :
    (range.tighten h).Spans (halfSpaces ++ [h]) := by
  by_cases above : h.BoundsAbove
  · have tightened : range.tighten h = { range with upper := lowest range.upper h.bound } :=
      if_pos above
    rw [tightened]
    refine ⟨?_, ?_⟩
    · rw [boundsOf_append_self above]
      exact isEnd_lowest spans.upper _
    · rw [boundsOf_append_other (not_not.mpr above)]
      exact spans.lower
  · have tightened : range.tighten h = { range with lower := highest range.lower h.bound } :=
      if_neg above
    rw [tightened]
    refine ⟨?_, ?_⟩
    · rw [boundsOf_append_other above]
      exact spans.upper
    · rw [boundsOf_append_self above]
      exact isEnd_highest spans.lower _

/-- The ends do not depend on the order of the half-spaces. -/
theorem Spans.perm {others : List (HalfSpace α 1)} (spans : range.Spans halfSpaces)
    (perm : halfSpaces.Perm others) : range.Spans others where
  upper := boundsOf_perm perm ▸ spans.upper
  lower := boundsOf_perm perm ▸ spans.lower

/-- Inserting them one after the other gives any half-spaces a range. -/
theorem exists_spans (halfSpaces : List (HalfSpace α 1)) : ∃ range : Interval α, range.Spans halfSpaces := by
  induction halfSpaces using List.reverseRecOn with
  | nil => exact ⟨line, line_spans⟩
  | append_singleton earlier h ih =>
    obtain ⟨range, spans⟩ := ih
    exact ⟨range.tighten h, tighten_spans spans h⟩

/-- A half-space leaves an end on its side. -/
theorem Spans.some_end (spans : range.Spans halfSpaces) (nonempty : halfSpaces ≠ []) :
    range.upper ≠ none ∨ range.lower ≠ none := by
  obtain ⟨h, hh⟩ := List.exists_mem_of_ne_nil _ nonempty
  by_contra open_ends
  obtain ⟨upper, lower⟩ := not_or.mp open_ends
  have no_upper := spans.upper
  have no_lower := spans.lower
  rw [not_not.mp upper] at no_upper
  rw [not_not.mp lower] at no_lower
  exact not_side_of_boundsOf_eq_empty no_lower hh (not_side_of_boundsOf_eq_empty no_upper hh)

omit [OrderedScalar α] in
/-- Where there is a bound there is an end. -/
theorem IsEnd.exists_of_mem {extreme : Set α → α → Prop} {bounds : Set α} {edge : Option α} {b : α}
    (is_end : IsEnd extreme bounds edge) (hb : b ∈ bounds) : ∃ x, edge = some x ∧ extreme bounds x := by
  cases edge with
  | none =>
    obtain rfl : bounds = ∅ := is_end
    cases hb
  | some x => exact ⟨x, rfl, is_end⟩

theorem IsEnd.le_iff {bounds : Set α} {edge : Option α} (is_end : IsEnd IsLeast bounds edge) (x : α) :
    x ∈ lowerBounds bounds ↔ ∀ hi, edge = some hi → x ≤ hi := by
  cases edge with
  | none =>
    obtain rfl : bounds = ∅ := is_end
    simp
  | some hi => simpa using (le_isGLB_iff (IsLeast.isGLB is_end)).symm

theorem IsEnd.ge_iff {bounds : Set α} {edge : Option α} (is_end : IsEnd IsGreatest bounds edge)
    (x : α) : x ∈ upperBounds bounds ↔ ∀ lo, edge = some lo → lo ≤ x := by
  cases edge with
  | none =>
    obtain rfl : bounds = ∅ := is_end
    simp
  | some lo => simpa using (isLUB_le_iff (IsGreatest.isLUB is_end)).symm

/-- The coordinate lies between the ends, where there are ends. -/
def Contains (range : Interval α) (x : α) : Prop :=
  (∀ hi, range.upper = some hi → x ≤ hi) ∧ ∀ lo, range.lower = some lo → lo ≤ x

theorem endOr_eq_getD (edge : Option α) (other : α) : endOr edge other = edge.getD other := by
  cases edge <;> simp [endOr]

theorem isEmpty_iff {tol : Tolerance α} :
    range.isEmpty tol = true ↔
      ∃ lo hi, range.lower = some lo ∧ range.upper = some hi ∧ hi + tol.feas < lo := by
  obtain ⟨lower, upper⟩ := range
  cases lower <;> cases upper <;> simp [isEmpty]

theorem Spans.crosses_iff (spans : range.Spans halfSpaces) {slack : α} :
    Crosses slack halfSpaces ↔
      ∃ lo hi, range.lower = some lo ∧ range.upper = some hi ∧ hi + slack < lo := by
  constructor
  · intro ⟨g, hg, h, hh, above, below, apart⟩
    obtain ⟨hi, upper, least⟩ := spans.upper.exists_of_mem ⟨g, hg, above, rfl⟩
    obtain ⟨lo, lower, greatest⟩ := spans.lower.exists_of_mem ⟨h, hh, below, rfl⟩
    refine ⟨lo, hi, lower, upper, ?_⟩
    calc hi + slack
        _ ≤ g.bound + slack := OrderedScalar.add_le_add_right (least.2 ⟨g, hg, above, rfl⟩) _
        _ < h.bound := apart
        _ ≤ lo := greatest.2 ⟨h, hh, below, rfl⟩
  · intro ⟨lo, hi, lower, upper, apart⟩
    obtain ⟨upper_end, lower_end⟩ := spans
    rw [upper] at upper_end
    rw [lower] at lower_end
    obtain ⟨g, hg, above, same⟩ := upper_end.1
    obtain ⟨h, hh, below, same'⟩ := lower_end.1
    exact ⟨g, hg, h, hh, above, below, by rwa [same, same']⟩

theorem settle_eq_infeasible_iff {tol : Tolerance α} {c : α} :
    range.settle tol c = .infeasible ↔ range.isEmpty tol = true := by
  rw [settle]
  split <;> simp_all

/-- A range is settled as empty exactly if its half-spaces have bounds that cross. -/
theorem Spans.settle_eq_infeasible_iff (spans : range.Spans halfSpaces) {tol : Tolerance α} {c : α} :
    range.settle tol c = .infeasible ↔ Crosses tol.feas halfSpaces := by
  rw [Interval.settle_eq_infeasible_iff, isEmpty_iff, spans.crosses_iff]

/-- The reported end of a range that is not empty is one of its coordinates. -/
theorem contains_bestEnd {tol : Tolerance α} (c : α)
    (some_end : range.upper ≠ none ∨ range.lower ≠ none)
    (ordered : ∀ lo hi, range.lower = some lo → range.upper = some hi → lo ≤ hi) :
    range.Contains (range.bestEnd tol c) := by
  obtain ⟨lower, upper⟩ := range
  cases lower with
  | none =>
    cases upper with
    | none => simp at some_end
    | some hi => simp [Contains, bestEnd, endOr]
  | some lo =>
    cases upper with
    | none => simp [Contains, bestEnd, endOr]
    | some hi =>
      have le : lo ≤ hi := ordered lo hi rfl rfl
      rw [bestEnd]
      split <;> simp [Contains, endOr, le]

theorem bestEnd_eq_upper {tol : Tolerance α} {c hi : α} (falls : c < -tol.det)
    (upper : range.upper = some hi) : range.bestEnd tol c = hi := by
  rw [bestEnd, if_pos falls, endOr_eq_getD, upper, Option.getD_some]

theorem bestEnd_eq_lower {tol : Tolerance α} {c lo : α} (rises : ¬c < -tol.det)
    (lower : range.lower = some lo) : range.bestEnd tol c = lo := by
  rw [bestEnd, if_neg rises, endOr_eq_getD, lower, Option.getD_some]

end Ordered

section Exact

variable [ExactScalar α] {range : Interval α} {halfSpaces : List (HalfSpace α 1)} {direction : Vec α 1}

namespace Spans

theorem feasible_iff (spans : range.Spans halfSpaces)
    (normalised : ∀ h ∈ halfSpaces, h.Normalised) (x : Point α 1) :
    Feasible halfSpaces x ↔ range.Contains (x.coord 0) := by
  rw [feasible_line_iff normalised, spans.upper.le_iff, spans.lower.ge_iff, Contains]

/-- Without an upper end every half-space bounds from below, so one may walk up for ever. -/
theorem hasDescent_up (spans : range.Spans halfSpaces)
    (normalised : ∀ h ∈ halfSpaces, h.Normalised) (no_end : range.upper = none)
    (falls : direction.coord 0 < 0) : HasDescent halfSpaces direction := by
  have empty := spans.upper
  rw [no_end] at empty
  refine hasDescent_line 1 (fun h hh => ?_) (by rwa [mul_one])
  have below := not_side_of_boundsOf_eq_empty empty hh
  rw [HalfSpace.normal_of_not_boundsAbove (normalised h hh) below, mul_one]
  exact neg_one_lt_zero.le

/-- Without a lower end one may walk down for ever. -/
theorem hasDescent_down (spans : range.Spans halfSpaces)
    (normalised : ∀ h ∈ halfSpaces, h.Normalised) (no_end : range.lower = none)
    (rises : 0 < direction.coord 0) : HasDescent halfSpaces direction := by
  have empty := spans.lower
  rw [no_end] at empty
  refine hasDescent_line (-1) (fun h hh => ?_) (by simpa using rises)
  have above := not_not.mp (not_side_of_boundsOf_eq_empty empty hh)
  rw [HalfSpace.normal_of_boundsAbove (normalised h hh) above, one_mul]
  exact neg_one_lt_zero.le

end Spans

/-- Where nothing descends, the end on the objective's side is there, and best. -/
theorem Spans.bestEnd_le {tol : Tolerance α} (spans : range.Spans halfSpaces)
    (normalised : ∀ h ∈ halfSpaces, h.Normalised) (det : tol.det = 0)
    (level : ¬HasDescent halfSpaces direction) {x : α} (inside : range.Contains x) :
    direction.coord 0 * range.bestEnd tol (direction.coord 0) ≤ direction.coord 0 * x := by
  rcases lt_trichotomy (direction.coord 0) 0 with falls | flat | rises
  · cases upper : range.upper with
    | none => exact absurd (spans.hasDescent_up normalised upper falls) level
    | some hi =>
      rw [bestEnd_eq_upper (by rwa [det, neg_zero]) upper]
      exact mul_le_mul_of_nonpos_left (inside.1 hi upper) falls.le
  · rw [flat, zero_mul, zero_mul]
  · cases lower : range.lower with
    | none => exact absurd (spans.hasDescent_down normalised lower rises) level
    | some lo =>
      rw [bestEnd_eq_lower (by rw [det, neg_zero]; exact not_lt.mpr rises.le) lower]
      exact mul_le_mul_of_nonneg_left (inside.2 lo lower) rises.le

theorem Spans.settle_sound {tol : Tolerance α} (spans : range.Spans halfSpaces)
    (normalised : ∀ h ∈ halfSpaces, h.Normalised) (nonempty : halfSpaces ≠ []) (det : tol.det = 0)
    (feas : tol.feas = 0) :
    (range.settle tol (direction.coord 0)).Sound halfSpaces direction := by
  rw [settle]
  split
  · next apart =>
    refine ⟨by simp [Solution.point?], fun _ x hx => ?_, by simp [Solution.point?]⟩
    -- The ends cross, and every feasible coordinate would lie between them.
    obtain ⟨lo, hi, lower, upper, above⟩ := isEmpty_iff.mp apart
    obtain ⟨at_most, at_least⟩ := (spans.feasible_iff normalised x).mp hx
    rw [feas, add_zero] at above
    exact absurd ((at_least lo lower).trans (at_most hi upper)) (not_le.mpr above)
  · next meets =>
    have ordered : ∀ lo hi, range.lower = some lo → range.upper = some hi → lo ≤ hi := by
      intro lo hi lower upper
      by_contra above
      refine meets (isEmpty_iff.mpr ⟨lo, hi, lower, upper, ?_⟩)
      rw [feas, add_zero]
      exact not_le.mp above
    have feasible : Feasible halfSpaces ⟨#v[range.bestEnd tol (direction.coord 0)]⟩ :=
      (spans.feasible_iff normalised _).mpr
        (contains_bestEnd _ (spans.some_end nonempty) ordered)
    refine ⟨?_, by simp [Solution.point?], ?_⟩
    · intro p reported
      cases reported
      exact feasible
    · intro p reported level
      cases reported
      refine ⟨feasible, fun x hx => ?_⟩
      rw [Vec.eval_line, Vec.eval_line]
      exact spans.bestEnd_le normalised det level ((spans.feasible_iff normalised x).mp hx)

end Exact

end Interval

/-! ## Runs on the line -/

namespace Level

section Ordered

variable [OrderedScalar α]

/-- What the state of a run on the line says of the accepted half-spaces. The first one proposes its
boundary point; from the second on the solution is the one of the range. -/
inductive LineState (tol : Tolerance α) (c : α) :
    List (HalfSpace α 1) → Option (Interval α × Solution α 1) → Prop where
  | nothing : LineState tol c [] none
  | lone (h : HalfSpace α 1) :
      LineState tol c [h] (some (Interval.line.tighten h, .ambiguous h.boundary.point))
  | ranged {accepted : List (HalfSpace α 1)} {range : Interval α} (many : 2 ≤ accepted.length)
      (spans : range.Spans accepted) : LineState tol c accepted (some (range, range.settle tol c))

variable {tol : Tolerance α} {c : α} {accepted halfSpaces : List (HalfSpace α 1)}
  {direction : Vec α 1}

theorem lineState_insert {state : Option (Interval α × Solution α 1)}
    (reached : LineState tol c accepted state) (h : HalfSpace α 1) :
    LineState tol c (accepted ++ [h]) (some (Interval.insert tol c state h)) := by
  cases reached with
  | nothing => exact .lone h
  | lone first =>
    exact .ranged le_rfl (Interval.tighten_spans (Interval.tighten_spans Interval.line_spans first) h)
  | ranged many spans =>
    refine .ranged ?_ (Interval.tighten_spans spans h)
    rw [List.length_append]
    omega

theorem LineState.perm {range : Interval α} {solution : Solution α 1}
    (reached : LineState tol c accepted (some (range, solution))) (perm : accepted.Perm halfSpaces) :
    LineState tol c halfSpaces (some (range, solution)) := by
  cases reached with
  | lone h =>
    rw [← perm.singleton_eq]
    exact .lone h
  | ranged many spans => exact .ranged (perm.length_eq ▸ many) (spans.perm perm)

/-- A range that is empty early stays empty. -/
theorem LineState.of_infeasible {range : Interval α} {solution : Solution α 1}
    (reached : LineState tol c accepted (some (range, solution))) (infeasible : solution = .infeasible)
    (items : accepted.Subperm halfSpaces) : ∃ range, LineState tol c halfSpaces (some (range, solution)) := by
  cases reached with
  | lone h => cases infeasible
  | ranged many spans =>
    have crosses : Crosses tol.feas halfSpaces :=
      (spans.settle_eq_infeasible_iff.mp infeasible).mono items.subset
    obtain ⟨whole, spans⟩ := Interval.exists_spans halfSpaces
    have settled : whole.settle tol c = .infeasible := spans.settle_eq_infeasible_iff.mpr crosses
    refine ⟨whole, ?_⟩
    rw [infeasible, ← settled]
    exact .ranged (many.trans items.length_le) spans

/-- A run on the line, with any tolerances, ends in a state of the whole list, even if it stops early. -/
theorem solveLine_ensures [PickSource σ] (nonempty : halfSpaces ≠ []) :
    (solveLine tol halfSpaces direction : Run σ _).Ensures fun solution =>
      ∃ range, LineState tol (direction.coord 0) halfSpaces (some (range, solution)) := by
  have preserves : Insertion.Preserves (σ := σ)
      (fun _ state h => pure (Interval.insert tol (direction.coord 0) state h))
      (fun state => state.2.isInfeasible) (pending halfSpaces).toList
      (LineState tol (direction.coord 0)) :=
    fun accepted state h reached _ _ => Run.Ensures.pure' (lineState_insert reached h)
  have unstarted : ∀ accepted, LineState tol (direction.coord 0) accepted none → accepted = [] := by
    intro accepted reached
    cases reached
    rfl
  refine Run.Ensures.bind' (Insertion.insertAll_ensures preserves .nothing unstarted nonempty) ?_
  intro ⟨accepted, last⟩ ⟨⟨range, solution⟩, ended, reached, items, all⟩
  obtain rfl : last = _ := ended
  refine Run.Ensures.pure' ?_
  rcases all with perm | stopped
  · exact ⟨range, reached.perm perm⟩
  · exact reached.of_infeasible (Solution.isInfeasible_iff.mp stopped) items

/-- A lone half-space has its boundary point proposed, in every direction. -/
theorem solveLine_lone [PickSource σ] (h : HalfSpace α 1) :
    (solveLine tol [h] direction : Run σ _).Ensures (· = .ambiguous h.boundary.point) := by
  refine (solveLine_ensures (List.cons_ne_nil h [])).mono fun solution ⟨range, reached⟩ => ?_
  cases reached with
  | lone g => rfl
  | ranged many _ => simp at many

end Ordered

/-- On the line every solution of at least two half-spaces is settled. -/
theorem answers_of_lineState [ExactScalar α] {tol : Tolerance α} {accepted : List (HalfSpace α 1)}
    {direction : Vec α 1} (normalised : ∀ h ∈ accepted, h.Normalised) (det : tol.det = 0)
    (feas : tol.feas = 0) {range : Interval α} {solution : Solution α 1}
    (reached : LineState tol (direction.coord 0) accepted (some (range, solution))) :
    solution.Answers accepted direction := by
  cases reached with
  | lone h => exact Solution.answers_lone (normalised h (by simp)) direction
  | ranged many spans =>
    have nonempty : accepted ≠ [] := List.ne_nil_of_length_pos (by omega)
    refine ⟨spans.settle_sound normalised nonempty det feas, ?_, ?_⟩
    · exact fun h single => absurd single (ne_singleton_of_many many h)
    · intro _ _ p
      rw [Interval.settle]
      split <;> simp

end Level

end LowDimLP
