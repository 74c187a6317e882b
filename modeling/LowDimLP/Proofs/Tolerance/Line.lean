import LowDimLP.Proofs.Solver.Line
import LowDimLP.Proofs.Tolerance.Kind
/-!
# The line under a slack

On the line the slack enters one comparison, of the two ends of the range, and every run compares the same
ends at last. So with any tolerances the answer is infeasible exactly if some lower bound lies above some
upper bound by more than the slack (`Crosses`), and an end that is reported misses the other one by the
slack at most. Neither depends on the order of the half-spaces.
-/

namespace LowDimLP

variable {σ α : Type} {halfSpaces : List (HalfSpace α 1)} {tol : Tolerance α}

variable [ExactScalar α]

theorem crosses_perm {others : List (HalfSpace α 1)} (perm : halfSpaces.Perm others) {slack : α} :
    Crosses slack halfSpaces ↔ Crosses slack others :=
  ⟨fun crosses => crosses.mono perm.subset, fun crosses => crosses.mono perm.symm.subset⟩

theorem not_crosses_singleton (slack : α) (h : HalfSpace α 1) : ¬Crosses slack [h] := by
  intro ⟨g, hg, k, hk, above, below, _⟩
  rw [List.mem_singleton.mp hg] at above
  rw [List.mem_singleton.mp hk] at below
  exact below above

/-- A feasible point separates the bounds, so only a negative slack could have them cross. -/
theorem Crosses.not_feasible {slack : α} (crosses : Crosses slack halfSpaces) (slack_nonneg : 0 ≤ slack)
    (normalised : ∀ h ∈ halfSpaces, h.Normalised) (x : Point α 1) : ¬Feasible halfSpaces x := by
  intro feasible
  obtain ⟨g, hg, h, hh, above, below, apart⟩ := crosses
  have at_most := (g.holds_iff_le_bound (normalised g hg) above x).mp (feasible g hg)
  have at_least := (h.holds_iff_bound_le (normalised h hh) below x).mp (feasible h hh)
  linarith

/-- On the line the distance by which a half-space is missed is that to its bound. -/
theorem HalfSpace.containsWithin_line_iff {h : HalfSpace α 1} (normalised : h.Normalised) (x : Point α 1)
    (slack : α) :
    h.containsWithin x slack = true ↔
      (h.BoundsAbove → x.coord 0 ≤ h.bound + slack) ∧ (¬h.BoundsAbove → h.bound ≤ x.coord 0 + slack) := by
  rw [containsWithin_iff, Vec.eval_line, bound_eq normalised]
  by_cases above : h.BoundsAbove
  · simp [above, normal_of_boundsAbove normalised above]
  · simp [above, normal_of_not_boundsAbove normalised above]
    constructor <;> intro within <;> linarith

namespace Interval

variable {range : Interval α}

/-- The end that is reported lies beyond neither end by more than the slack. -/
theorem bestEnd_within (tol : Tolerance α) (c : α) {slack : α} (slack_nonneg : 0 ≤ slack)
    (some_end : range.upper ≠ none ∨ range.lower ≠ none)
    (meets : ∀ lo hi, range.lower = some lo → range.upper = some hi → lo ≤ hi + slack) :
    (∀ hi, range.upper = some hi → range.bestEnd tol c ≤ hi + slack) ∧
      ∀ lo, range.lower = some lo → lo ≤ range.bestEnd tol c + slack := by
  obtain ⟨lower, upper⟩ := range
  cases lower with
  | none =>
    cases upper with
    | none => simp at some_end
    | some hi => simp [bestEnd, endOr, slack_nonneg]
  | some lo =>
    cases upper with
    | none => simp [bestEnd, endOr, slack_nonneg]
    | some hi =>
      have meets : lo ≤ hi + slack := meets lo hi rfl rfl
      rw [bestEnd]
      split <;> simp [endOr, slack_nonneg, meets]

theorem Spans.contains_bestEnd_within (spans : range.Spans halfSpaces)
    (normalised : ∀ h ∈ halfSpaces, h.Normalised) (nonempty : halfSpaces ≠ []) (feas : 0 ≤ tol.feas)
    (meets : ¬Crosses tol.feas halfSpaces) (c : α) :
    ∀ h ∈ halfSpaces, h.containsWithin (⟨#v[range.bestEnd tol c]⟩ : Point α 1) tol.feas = true := by
  have ordered : ∀ lo hi, range.lower = some lo → range.upper = some hi → lo ≤ hi + tol.feas := by
    intro lo hi lower upper
    by_contra above
    exact meets (spans.crosses_iff.mpr ⟨lo, hi, lower, upper, not_le.mp above⟩)
  obtain ⟨at_most, at_least⟩ :=
    bestEnd_within tol c feas (spans.some_end nonempty) ordered
  intro h hh
  refine (HalfSpace.containsWithin_line_iff (normalised h hh) _ _).mpr ⟨fun above => ?_, fun below => ?_⟩
  · obtain ⟨hi, upper, least⟩ := spans.upper.exists_of_mem ⟨h, hh, above, rfl⟩
    exact (at_most hi upper).trans (add_le_add_left (least.2 ⟨h, hh, above, rfl⟩) _)
  · obtain ⟨lo, lower, greatest⟩ := spans.lower.exists_of_mem ⟨h, hh, below, rfl⟩
    exact (greatest.2 ⟨h, hh, below, rfl⟩).trans (at_least lo lower)

end Interval

/-! ## Runs -/

/-- The answer of the line under a slack: its kind, and how far a reported point is from feasible. -/
structure Solution.AnswersLine (tol : Tolerance α) (halfSpaces : List (HalfSpace α 1))
    (solution : Solution α 1) : Prop where
  kind : solution.kind = .judged (Crosses tol.feas halfSpaces) (halfSpaces.length = 1)
  within : solution.Within tol.feas halfSpaces

theorem Solution.AnswersLine.kind_perm {others : List (HalfSpace α 1)} {solution : Solution α 1}
    (answers : solution.AnswersLine tol halfSpaces) (perm : halfSpaces.Perm others) :
    solution.kind = .judged (Crosses tol.feas others) (others.length = 1) := by
  rw [answers.kind, perm.length_eq, ResultKind.judged_congr (crosses_perm perm) Iff.rfl]

namespace Level

variable {accepted : List (HalfSpace α 1)} {direction : Vec α 1}

theorem answersLine_of_lineState (normalised : ∀ h ∈ accepted, h.Normalised) (feas : 0 ≤ tol.feas)
    {c : α} {range : Interval α} {solution : Solution α 1}
    (reached : LineState tol c accepted (some (range, solution))) :
    solution.AnswersLine tol accepted := by
  cases reached with
  | lone h =>
    refine ⟨?_, ?_⟩
    · rw [ResultKind.judged_of_unsettled (not_crosses_singleton _ h) List.length_singleton]
      rfl
    · intro p reported g hg
      cases reported
      obtain rfl := List.mem_singleton.mp hg
      exact HalfSpace.containsWithin_of_holds feas
        (HalfSpace.holds_of_boundary (normalised g hg).holds_point)
  | ranged many spans =>
    rw [Interval.settle]
    split
    · next apart =>
      have crosses := spans.crosses_iff.mpr (Interval.isEmpty_iff.mp apart)
      refine ⟨(ResultKind.judged_of_empty crosses).symm, ?_⟩
      intro p reported
      cases reported
    · next meets =>
      have meets : ¬Crosses tol.feas accepted :=
        fun crosses => meets (Interval.isEmpty_iff.mpr (spans.crosses_iff.mp crosses))
      refine ⟨(ResultKind.judged_of_settled meets (by omega)).symm, ?_⟩
      intro p reported
      cases reported
      exact spans.contains_bestEnd_within normalised (List.ne_nil_of_length_pos (by omega)) feas meets c

theorem solveLine_answersLine [PickSource σ] (nonempty : halfSpaces ≠ [])
    (normalised : ∀ h ∈ halfSpaces, h.Normalised) (feas : 0 ≤ tol.feas) :
    (solveLine tol halfSpaces direction : Run σ _).Ensures
      (Solution.AnswersLine tol halfSpaces) := by
  refine (solveLine_ensures nonempty).mono ?_
  intro solution ⟨range, reached⟩
  exact answersLine_of_lineState normalised feas reached

end Level

end LowDimLP
