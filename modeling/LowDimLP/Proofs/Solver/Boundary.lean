import Mathlib.Order.Bounds.Basic
import LowDimLP.Proofs.Solver.Correctness
/-!
# The problem on a boundary

A violated half-space, or one that bounds the objective at last, sends the optimum to its boundary. There the
level solves a problem of its own, over the boundary points that lie in every accepted half-space
(`boundaryPoints`), with the level below at its service. Without tolerances `Level.descend` answers that
problem, from every source: it reports none exactly if there is no such point, and otherwise one of them, the
best if there is a best (`Level.descend_solves_boundary`).
-/

namespace LowDimLP

variable {σ α : Type} [ExactScalar α] {n : Nat}

/-- The points of the boundary of `h` that lie in every accepted half-space. -/
def boundaryPoints (accepted : List (HalfSpace α n)) (h : HalfSpace α n) : Set (Point α n) :=
  {x | h.boundary.Holds x ∧ Feasible accepted x}

section Points

variable {accepted : List (HalfSpace α n)} {h : HalfSpace α n} {direction : Vec α n} {p : Point α n}

/-- A descent along the boundary would undercut the bound from any of its points. -/
theorem not_hasBoundaryDescent_of_bddBelow (hp : p ∈ boundaryPoints accepted h)
    (bounded : BddBelow (direction.eval '' boundaryPoints accepted h)) :
    ¬HasBoundaryDescent accepted h direction := by
  intro ⟨d, descent, along⟩
  obtain ⟨bound, above⟩ := bounded
  obtain ⟨t, ahead, below⟩ := exists_walk_lt descent.falls p bound
  have on_boundary : h.boundary.Holds (p.translate (d.scaled t)) := by
    rw [Plane.Holds, Vec.eval_translate, Vec.dot_scaled, along, zero_mul, add_zero]
    exact hp.1
  have walked : p.translate (d.scaled t) ∈ boundaryPoints accepted h :=
    ⟨on_boundary, feasible_walk hp.2 descent.stays ahead⟩
  exact absurd (above (Set.mem_image_of_mem _ walked)) (not_le.mpr below)

theorem IsBoundaryOptimum.mem_boundaryPoints (optimum : IsBoundaryOptimum accepted h direction p) :
    p ∈ boundaryPoints accepted h := ⟨optimum.holds, optimum.feasible⟩

theorem IsBoundaryOptimum.isLeast (optimum : IsBoundaryOptimum accepted h direction p)
    (bounded : BddBelow (direction.eval '' boundaryPoints accepted h)) :
    IsLeast (direction.eval '' boundaryPoints accepted h) (direction.eval p) := by
  refine ⟨Set.mem_image_of_mem _ optimum.mem_boundaryPoints, ?_⟩
  rintro _ ⟨x, ⟨on_boundary, feasible⟩, rfl⟩
  exact optimum.le_eval (not_hasBoundaryDescent_of_bddBelow optimum.mem_boundaryPoints bounded) x
    feasible on_boundary

end Points

namespace Level

variable [PickSource σ]

/-- **A descent solves the problem on the boundary.** It reports that nothing is feasible exactly if no
boundary point lies in all accepted half-spaces, and otherwise such a point, whose value is the least
wherever the values are bounded below. The flag only picks the tag. -/
theorem descend_solves_boundary {h : HalfSpace α (n + 2)} (normalised : h.Normalised)
    (direction : Vec α (n + 2)) (accepted : List (HalfSpace α (n + 2))) (bounded : Bool) :
    (descend (solve Tolerance.exact n) Tolerance.exact direction accepted h bounded :
      Run σ (Solution α (n + 2))).Ensures fun solution =>
        (solution = .infeasible ↔ boundaryPoints accepted h = ∅) ∧
        (solution ≠ .infeasible → ∃ p, solution = (if bounded then .minimum p else .ambiguous p) ∧
          p ∈ boundaryPoints accepted h ∧
          (BddBelow (direction.eval '' boundaryPoints accepted h) →
            IsLeast (direction.eval '' boundaryPoints accepted h) (direction.eval p))) := by
  have sound : SolverOf.Sound (solve Tolerance.exact n : SolverOf σ α (n + 1)) :=
    solve_sound Tolerance.exact_det Tolerance.exact_feas n
  refine (descend_ensures sound Tolerance.exact_det Tolerance.exact_feas normalised bounded).mono ?_
  intro solution answer
  rcases answer with ⟨rfl, missed⟩ | ⟨p, rfl, optimum⟩
  · refine ⟨iff_of_true rfl ?_, fun feasible => absurd rfl feasible⟩
    exact Set.eq_empty_of_forall_notMem fun x ⟨on_boundary, feasible⟩ => missed x feasible on_boundary
  · have reported : (if bounded then .minimum p else .ambiguous p : Solution α (n + 2)) ≠ .infeasible := by
      cases bounded <;> simp
    refine ⟨iff_of_false reported ?_, fun _ => ⟨p, rfl, optimum.mem_boundaryPoints, optimum.isLeast⟩⟩
    exact Set.Nonempty.ne_empty ⟨p, optimum.mem_boundaryPoints⟩

/-- The points above a slanted line. -/
noncomputable def slantedHalfPlane : HalfSpace ℝ 2 := .ofUnit ⟨#v[-8 / 17, -15 / 17]⟩ 1

theorem slantedHalfPlane_normalised : slantedHalfPlane.Normalised := by
  refine HalfSpace.normalised_ofUnit ?_ 1
  simp [Vec.dot_eq_sum, Vec.coord, Coords.get]
  norm_num

/-- Of the points of the line with no positive coordinate, the best one is found. -/
theorem descend_solves_slanted_boundary :
    slantedHalfPlane.Normalised ∧
    (descend (solve Tolerance.exact 0) Tolerance.exact ⟨#v[1, 2]⟩ quadrant slantedHalfPlane true :
      Run ListedWords (Solution ℝ 2)).Ensures fun solution =>
        (solution = .infeasible ↔ boundaryPoints quadrant slantedHalfPlane = ∅) ∧
        (solution ≠ .infeasible → ∃ p, solution = (if true then .minimum p else .ambiguous p) ∧
          p ∈ boundaryPoints quadrant slantedHalfPlane ∧
          (BddBelow ((⟨#v[1, 2]⟩ : Vec ℝ 2).eval '' boundaryPoints quadrant slantedHalfPlane) →
            IsLeast ((⟨#v[1, 2]⟩ : Vec ℝ 2).eval '' boundaryPoints quadrant slantedHalfPlane)
              ((⟨#v[1, 2]⟩ : Vec ℝ 2).eval p))) :=
  ⟨slantedHalfPlane_normalised, descend_solves_boundary slantedHalfPlane_normalised _ _ true⟩

end Level

end LowDimLP
