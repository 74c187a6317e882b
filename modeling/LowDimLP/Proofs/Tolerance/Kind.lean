import LowDimLP.Proofs.LinearProgram
import LowDimLP.Solver.Solution
/-!
# The kind of an answer and its distance from feasible

Two things are said of an answer under tolerances. Its kind is judged by two questions about the problem,
whether it has no feasible point and whether its objective stays unsettled (`ResultKind.judged`); answers to
the same questions have the same kind. And a reported point lies within a slack of every half-space
(`Solution.Within`).
-/

namespace LowDimLP

universe u

namespace ResultKind

open Classical in
/-- Infeasible if the problem is empty, else ambiguous if it is unsettled, else a minimum. -/
noncomputable def judged (empty unsettled : Prop) : ResultKind :=
  if empty then .infeasible else if unsettled then .ambiguous else .minimum

variable {empty unsettled empty' unsettled' : Prop}

theorem judged_of_empty (h : empty) : judged empty unsettled = .infeasible := if_pos h

theorem judged_of_unsettled (h : ¬empty) (h' : unsettled) : judged empty unsettled = .ambiguous := by
  rw [judged, if_neg h, if_pos h']

theorem judged_of_settled (h : ¬empty) (h' : ¬unsettled) : judged empty unsettled = .minimum := by
  rw [judged, if_neg h, if_neg h']

theorem judged_eq_infeasible_iff : judged empty unsettled = .infeasible ↔ empty := by
  rw [judged]
  split
  · next h => exact iff_of_true rfl h
  · next h => split <;> simp [h]

theorem judged_congr (h : empty ↔ empty') (h' : unsettled ↔ unsettled') :
    judged empty unsettled = judged empty' unsettled' := by
  rw [propext h, propext h']

end ResultKind

variable {α : Type u} [ExactScalar α] {n : Nat} {halfSpaces others : List (HalfSpace α n)} {slack : α}

theorem HalfSpace.containsWithin_mono {h : HalfSpace α n} {x : Point α n} {wider : α}
    (le : slack ≤ wider) (within : h.containsWithin x slack = true) : h.containsWithin x wider = true := by
  rw [containsWithin_iff] at *
  exact within.trans (add_le_add_right le _)

theorem HalfSpace.containsWithin_of_holds {h : HalfSpace α n} {x : Point α n} (nonneg : 0 ≤ slack)
    (holds : h.Holds x) : h.containsWithin x slack = true :=
  containsWithin_mono nonneg (containsWithin_zero_iff.mpr holds)

/-- Every half-space holds of a reported point up to the slack. -/
def Solution.Within (slack : α) (halfSpaces : List (HalfSpace α n)) (solution : Solution α n) : Prop :=
  ∀ p, solution.point? = some p → ∀ h ∈ halfSpaces, h.containsWithin p slack = true

namespace Solution

theorem within_infeasible (slack : α) (halfSpaces : List (HalfSpace α n)) :
    (infeasible : Solution α n).Within slack halfSpaces := by
  intro p reported
  cases reported

theorem Within.of_subset {solution : Solution α n} (within : solution.Within slack halfSpaces)
    (sub : others ⊆ halfSpaces) : solution.Within slack others :=
  fun p reported h hh => within p reported h (sub hh)

end Solution

end LowDimLP
