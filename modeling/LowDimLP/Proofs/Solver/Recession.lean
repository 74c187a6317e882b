import LowDimLP.Proofs.Solver.Descent
/-!
# The recession test

The descents of a linear program, scaled to one speed, are the points of a plane: the slice on which the
objective falls by the length of its direction. The half-spaces moved to the origin cut the directions that
never leave them out of it, so a descent is a point of the slice in all of them
(`hasDescent_iff_slice`), and whether there is one is a question of feasibility one dimension down. With a
sound level below, `Level.objectiveBounded` answers it (`objectiveBounded_ensures`).
-/

namespace LowDimLP

variable {σ α : Type} [ExactScalar α] {n : Nat}

theorem HalfSpace.recession_holds_iff {h : HalfSpace α n} {x : Point α n} :
    h.recession.Holds x ↔ h.boundary.normal.dot (Point.origin.displacement x) ≤ 0 := by
  rw [Vec.dot_displacement, Vec.eval_origin, sub_zero]
  rfl

theorem feasible_recession_iff {halfSpaces : List (HalfSpace α n)} {x : Point α n} :
    Feasible (halfSpaces.map HalfSpace.recession) x ↔
      ∀ h ∈ halfSpaces, h.boundary.normal.dot (Point.origin.displacement x) ≤ 0 := by
  simp [Feasible, HalfSpace.recession_holds_iff]

/-- Nothing descends along the zero direction. -/
theorem not_hasDescent_zero (halfSpaces : List (HalfSpace α n)) :
    ¬HasDescent halfSpaces (Vec.zero : Vec α n) := by
  intro ⟨d, _, falls⟩
  simp [Vec.dot_eq_sum] at falls

/-- On the slice the objective is minus the length of its direction. -/
theorem slice_holds_iff {direction : Vec α n} {slice : Plane α n}
    (built : Plane.ofEquation direction (-direction.length) = .ok slice) {x : Point α n} :
    slice.Holds x ↔ direction.eval x = -direction.length := by
  have nonzero : direction ≠ Vec.zero := by
    intro zero
    subst zero
    rw [Plane.ofEquation_zero] at built
    cases built
  have positive := Vec.length_pos nonzero
  rw [Plane.ofEquation_eq_ok nonzero] at built
  cases built
  rw [Plane.Holds, Vec.scaled_eval, mul_one_div, div_left_inj' positive.ne']

/-- A descent, scaled to the speed of the slice, is a point of it. -/
theorem hasDescent_iff_slice {halfSpaces : List (HalfSpace α n)} {direction : Vec α n}
    {slice : Plane α n} (nonzero : direction ≠ Vec.zero)
    (built : Plane.ofEquation direction (-direction.length) = .ok slice) :
    HasDescent halfSpaces direction ↔
      ∃ x, slice.Holds x ∧ Feasible (halfSpaces.map HalfSpace.recession) x := by
  have positive := Vec.length_pos nonzero
  constructor
  · intro ⟨d, stays, falls⟩
    -- Scaled to fall by the length of the direction, the descent reaches the slice from the origin.
    have scale : 0 ≤ direction.length / -direction.dot d :=
      div_nonneg positive.le (neg_pos.mpr falls).le
    refine ⟨Point.origin.translate (d.scaled (direction.length / -direction.dot d)), ?_, ?_⟩
    · rw [slice_holds_iff built, Vec.eval_translate, Vec.eval_origin, Vec.dot_scaled]
      have speed := falls.ne
      field_simp
      ring
    · rw [feasible_recession_iff]
      intro h hh
      rw [Vec.dot_displacement, Vec.eval_translate, Vec.dot_scaled, add_sub_cancel_left]
      exact mul_nonpos_of_nonpos_of_nonneg (stays h hh) scale
  · intro ⟨x, on_slice, stays⟩
    refine ⟨Point.origin.displacement x, feasible_recession_iff.mp stays, ?_⟩
    rw [Vec.dot_displacement, Vec.eval_origin, (slice_holds_iff built).mp on_slice, sub_zero]
    exact neg_lt_zero.mpr positive

/-- In the chart of the slice a descent is a point that the half-spaces at the origin hold of. -/
theorem hasDescent_iff_chart {halfSpaces : List (HalfSpace α (n + 1))} {direction : Vec α (n + 1)}
    {slice : Plane α (n + 1)} (nonzero : direction ≠ Vec.zero)
    (built : Plane.ofEquation direction (-direction.length) = .ok slice) :
    HasDescent halfSpaces direction ↔
      ∃ y, Feasible (halfSpaces.map HalfSpace.recession) ((Frame.on slice).lift y) := by
  have pivot := Frame.pivot_on_ne_zero (Plane.normalised_of_ofEquation built).normal_ne_zero
  exact (hasDescent_iff_slice nonzero built).trans (Frame.exists_holds_iff pivot)

namespace Level

variable {below : SolverOf σ α n} {tol : Tolerance α} {direction : Vec α (n + 1)}
  {halfSpaces : List (HalfSpace α (n + 1))}

theorem objectiveBounded_ensures (sound : SolverOf.Sound below) (det : tol.det = 0)
    (feas : tol.feas = 0) :
    (objectiveBounded below tol direction halfSpaces).Ensures
      fun bounded => bounded = true ↔ ¬HasDescent halfSpaces direction := by
  rw [objectiveBounded, det]
  apply Run.Ensures.ite'
  · intro zero
    rw [Vec.isZero_zero_iff.mp zero]
    exact Run.Ensures.pure' (by simp [not_hasDescent_zero])
  · intro zero
    have nonzero : direction ≠ Vec.zero := fun h => zero (Vec.isZero_zero_iff.mpr h)
    obtain ⟨slice, built⟩ : ∃ slice,
        Plane.ofEquation direction (-direction.length) = .ok slice :=
      ⟨_, Plane.ofEquation_eq_ok nonzero _⟩
    have plane : (Frame.on slice).plane.Normalised := Plane.normalised_of_ofEquation built
    have pivot := Frame.pivot_on_ne_zero plane.normal_ne_zero
    simp only [built, hasDescent_iff_chart nonzero built]
    cases traced : (Frame.on slice).traces tol (halfSpaces.map HalfSpace.recession) with
    | none =>
      refine Run.Ensures.pure' (iff_of_true rfl ?_)
      exact not_exists.mpr (Frame.traces_none plane pivot det feas traced)
    | some cone =>
      have traces := Frame.traces_some plane pivot det feas traced
      simp only [← traces.feasible_iff]
      apply Run.Ensures.ite'
      · intro unconstrained
        rw [List.isEmpty_iff.mp unconstrained]
        exact Run.Ensures.pure' (iff_of_false Bool.false_ne_true
          (not_not.mpr ⟨Point.origin, by simp [Feasible]⟩))
      · intro constrained
        have nonempty : cone ≠ [] := fun h => constrained (List.isEmpty_iff.mpr h)
        refine Run.Ensures.bind' (sound cone _ nonempty traces.normalised) ?_
        intro solution answer
        apply Run.Ensures.pure'
        -- The question was whether the cone has a point; every solution but one exhibits it.
        cases solution with
        | infeasible => exact iff_of_true rfl (not_exists.mpr (answer.empty rfl))
        | minimum p =>
          exact iff_of_false Bool.false_ne_true (not_not.mpr ⟨p, answer.feasible p rfl⟩)
        | ambiguous p =>
          exact iff_of_false Bool.false_ne_true (not_not.mpr ⟨p, answer.feasible p rfl⟩)

end Level

end LowDimLP
