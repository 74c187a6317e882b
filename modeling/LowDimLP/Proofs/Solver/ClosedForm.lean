import LowDimLP.Proofs.Solver.Soundness
/-!
# The line in closed form

A run of the line tightens a range step by step, may stop early, and settles anew after every insertion. What
it answers is one formula over the whole list all the same: take the largest lower bound and the smallest upper
bound, compare them once, and report the end on the objective's side, or the other one where that side is open
(`Level.solveLine_eq_settle`, `solve_line_closed_form`). The formula reads no order of the list and no draw, and it
holds with any tolerances, over any scalars whose order their addition keeps.
-/

namespace LowDimLP

variable {σ α : Type}

/-! ## The ends of a whole list -/

instance [Scalar α] (h : HalfSpace α 1) : Decidable h.BoundsAbove := Scalar.decidableLt _ _

section Ends

variable [OrderedScalar α]

/-- The bounds that come from the half-spaces of one side, in the order of the list. -/
def bounds (side : HalfSpace α 1 → Prop) [DecidablePred side] (halfSpaces : List (HalfSpace α 1)) :
    List α :=
  (halfSpaces.filter fun h => side h).map HalfSpace.bound

/-- The largest bound from below; none where nothing bounds from below. A half-space that does not bound from
above has a negative normal (`HalfSpace.normal_of_not_boundsAbove`). -/
def lowerEnd? (halfSpaces : List (HalfSpace α 1)) : Option α :=
  (bounds (¬HalfSpace.BoundsAbove ·) halfSpaces).max?

/-- The smallest bound from above; none where nothing bounds from above. -/
def upperEnd? (halfSpaces : List (HalfSpace α 1)) : Option α :=
  (bounds HalfSpace.BoundsAbove halfSpaces).min?

variable {side : HalfSpace α 1 → Prop} [DecidablePred side] {halfSpaces : List (HalfSpace α 1)}

theorem boundsOf_eq_bounds : boundsOf side halfSpaces = {b | b ∈ bounds side halfSpaces} := by
  ext b
  simp [boundsOf, bounds, and_assoc]

namespace Interval

variable {range : Interval α} {tol : Tolerance α} {c : α}

theorem IsEnd.eq_max? {bounds : List α} {edge : Option α}
    (is_end : IsEnd IsGreatest {b | b ∈ bounds} edge) : edge = bounds.max? := by
  cases edge with
  | none => exact (List.max?_eq_none_iff.mpr (List.eq_nil_iff_forall_not_mem.mpr
      (Set.eq_empty_iff_forall_notMem.mp is_end))).symm
  | some b => exact (List.max?_eq_some_iff.mpr is_end).symm

theorem IsEnd.eq_min? {bounds : List α} {edge : Option α}
    (is_end : IsEnd IsLeast {b | b ∈ bounds} edge) : edge = bounds.min? := by
  cases edge with
  | none => exact (List.min?_eq_none_iff.mpr (List.eq_nil_iff_forall_not_mem.mpr
      (Set.eq_empty_iff_forall_notMem.mp is_end))).symm
  | some b => exact (List.min?_eq_some_iff.mpr is_end).symm

/-- The range of the whole list. -/
def spanned (halfSpaces : List (HalfSpace α 1)) : Interval α :=
  ⟨lowerEnd? halfSpaces, upperEnd? halfSpaces⟩

/-- However a range came about, its ends are those of the whole list. -/
theorem Spans.eq_spanned (spans : range.Spans halfSpaces) : range = spanned halfSpaces := by
  obtain ⟨upper, lower⟩ := spans
  rw [boundsOf_eq_bounds] at upper lower
  rw [spanned, lowerEnd?, upperEnd?, ← lower.eq_max?, ← upper.eq_min?]

theorem spanned_spans (halfSpaces : List (HalfSpace α 1)) : (spanned halfSpaces).Spans halfSpaces := by
  obtain ⟨range, spans⟩ := exists_spans halfSpaces
  exact spans.eq_spanned ▸ spans

/-- The end on the objective's side is reported, and the other end where that side is open. -/
theorem bestEnd_eq (some_end : range.upper ≠ none ∨ range.lower ≠ none) :
    (if c < -tol.det then range.upper.or range.lower else range.lower.or range.upper) =
      some (range.bestEnd tol c) := by
  obtain ⟨lower, upper⟩ := range
  rw [bestEnd, apply_ite some, endOr_eq_getD, endOr_eq_getD]
  cases lower <;> cases upper <;> simp at some_end ⊢

end Interval

end Ends

/-! ## Runs -/

section Runs

variable [OrderedScalar α] [PickSource σ] {halfSpaces : List (HalfSpace α 1)} {tol : Tolerance α}

/-- A run of at least two half-spaces answers what the range of the whole list settles on. -/
theorem Level.solveLine_eq_settle (many : 2 ≤ halfSpaces.length) (direction : Vec α 1) :
    (solveLine tol halfSpaces direction : Run σ _).Ensures
      (· = (Interval.spanned halfSpaces).settle tol (direction.coord 0)) := by
  refine (solveLine_ensures (List.ne_nil_of_length_pos (by omega))).mono ?_
  intro solution ⟨range, reached⟩
  cases reached with
  | lone h => simp at many
  | ranged _ spans => rw [spans.eq_spanned]

/-- **The line in closed form.** Of at least two half-spaces, in any order, with any tolerances and from every
source, the run answers that nothing is feasible exactly if the largest lower bound lies above the smallest
upper bound by more than the slack. Otherwise it reports the upper end if the objective falls and the lower
end if not, or the other end where that one is open, as a minimum. -/
theorem solve_line_closed_form (many : 2 ≤ halfSpaces.length) (direction : Vec α 1) :
    (solve (halfSpaces.map (Sigma.mk 1)) ⟨1, direction⟩ tol : Run σ _).Ensures fun answer =>
      ∃ solution, answer = ⟨1, solution⟩ ∧
        (solution = .infeasible ↔ ∃ lo hi, lowerEnd? halfSpaces = some lo ∧
          upperEnd? halfSpaces = some hi ∧ hi + tol.feas < lo) ∧
        (solution ≠ .infeasible → ∃ x, solution = .minimum ⟨#v[x]⟩ ∧
          (if direction.coord 0 < -tol.det then (upperEnd? halfSpaces).or (lowerEnd? halfSpaces)
            else (lowerEnd? halfSpaces).or (upperEnd? halfSpaces)) = some x) := by
  have nonempty : halfSpaces ≠ [] := List.ne_nil_of_length_pos (by omega)
  refine solve_ensures nonempty ?_
  rw [Level.solve, if_pos direction.isFinite_eq_true]
  refine (Level.solveLine_eq_settle many direction).mono ?_
  rintro _ rfl
  refine ⟨Interval.settle_eq_infeasible_iff.trans Interval.isEmpty_iff, fun feasible => ?_⟩
  have meets : ¬(Interval.spanned halfSpaces).isEmpty tol = true :=
    fun apart => feasible (Interval.settle_eq_infeasible_iff.mpr apart)
  refine ⟨_, if_neg meets, ?_⟩
  exact Interval.bestEnd_eq ((Interval.spanned_spans halfSpaces).some_end nonempty)

end Runs

/-- The points up to `0` and those from `1 / 2` on. -/
noncomputable def crossedEnds : List (HalfSpace ℝ 1) := [.ofUnit ⟨#v[1]⟩ 0, .ofUnit ⟨#v[-1]⟩ (-1 / 2)]

theorem ends_crossedEnds : upperEnd? crossedEnds = some 0 ∧ lowerEnd? crossedEnds = some (1 / 2) := by
  have up : HalfSpace.BoundsAbove (.ofUnit ⟨#v[1]⟩ 0 : HalfSpace ℝ 1) := one_pos
  have down : ¬HalfSpace.BoundsAbove (.ofUnit ⟨#v[-1]⟩ (-1 / 2) : HalfSpace ℝ 1) :=
    not_lt.mpr neg_one_lt_zero.le
  have bound (normal offset : ℝ) : (.ofUnit ⟨#v[normal]⟩ offset : HalfSpace ℝ 1).bound = normal * offset := by
    simp [HalfSpace.bound, HalfSpace.ofUnit, Point.coord, Coords.get]
  simp [upperEnd?, lowerEnd?, bounds, crossedEnds, up, down, bound]
  norm_num

/-- Ends that cross by less than the slack are no contradiction, and the lower one is reported. -/
theorem solve_line_crossedEnds :
    2 ≤ crossedEnds.length ∧
    (solve (crossedEnds.map (Sigma.mk 1)) ⟨1, ⟨#v[1]⟩⟩ ⟨0, 1⟩ : Run ListedWords _).Ensures
      (· = ⟨1, .minimum ⟨#v[1 / 2]⟩⟩) := by
  refine ⟨le_rfl, (solve_line_closed_form (le_refl 2) ⟨#v[1]⟩).mono ?_⟩
  rintro _ ⟨solution, rfl, empty, settled⟩
  obtain ⟨upper, lower⟩ := ends_crossedEnds
  have feasible : solution ≠ .infeasible := by
    rw [Ne, empty, upper, lower]
    norm_num
  obtain ⟨x, rfl, chosen⟩ := settled feasible
  have rises : ¬(⟨#v[1]⟩ : Vec ℝ 1).coord 0 < -0 := not_lt.mpr (neg_zero.le.trans zero_le_one)
  rw [if_neg rises, lower, upper] at chosen
  cases chosen
  rfl

end LowDimLP
