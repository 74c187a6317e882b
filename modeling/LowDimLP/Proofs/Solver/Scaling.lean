import LowDimLP.Proofs.Solver.Failure
import LowDimLP.Proofs.Solver.Correctness
/-!
# Scaled objectives

Multiplying the objective by a positive number changes no optimum, and it changes nothing that a run does
either. In exact arithmetic, with no tolerance for small directions, the slice of a recession test is the same
plane, a direction reduced to a chart is scaled as the direction is, and the scan for the best vertex compares
values that are scaled together. So at every level the scaled run takes the branches and draws the picks of the
other one: the two runs are equal as functions of the source (`Level.solve_scaled`).
-/

namespace LowDimLP

variable {σ α : Type} [ExactScalar α] {n : Nat} {s : α}

/-! ## Scaled vectors -/

namespace Vec

theorem length_scaled (positive : 0 < s) (v : Vec α n) : (v.scaled s).length = v.length * s := by
  rw [← mul_self_inj (length_nonneg _) (mul_nonneg v.length_nonneg positive.le), length_mul_self,
    scaled_dot, dot_scaled, mul_mul_mul_comm, length_mul_self, mul_assoc]

theorem scaled_eq_zero_iff (positive : 0 < s) {v : Vec α n} : v.scaled s = zero ↔ v = zero := by
  rw [← dot_self_eq_zero, ← dot_self_eq_zero, scaled_dot, dot_scaled, mul_eq_zero, mul_eq_zero,
    or_iff_left positive.ne', or_iff_left positive.ne']

theorem scaled_reduce (v : Vec α (n + 1)) (frame : Frame α n) (s : α) :
    (v.scaled s).reduce frame = (v.reduce frame).scaled s := by
  apply ext_coord
  intro j
  rw [reduce, reduce, coord_scaled, Frame.coord_pullBack, Frame.coord_pullBack, Frame.ratio, Frame.ratio,
    coord_scaled, coord_scaled]
  ring

end Vec

/-- An equation multiplied on both sides describes the same plane. -/
theorem Plane.ofEquation_scaled (positive : 0 < s) (normal : Vec α n) (offset : α) :
    ofEquation (normal.scaled s) (offset * s) = ofEquation normal offset := by
  by_cases zero : normal = Vec.zero
  · rw [(Vec.scaled_eq_zero_iff positive).mpr zero, zero, ofEquation_zero, ofEquation_zero]
  · have nonzero : normal.scaled s ≠ Vec.zero := fun h => zero ((Vec.scaled_eq_zero_iff positive).mp h)
    have unit : (normal.scaled s).scaled (1 / (normal.scaled s).length) =
        normal.scaled (1 / normal.length) := by
      apply Vec.ext_coord
      intro i
      have length := (Vec.length_pos zero).ne'
      simp only [Vec.coord_scaled, Vec.length_scaled positive]
      field_simp
    rw [ofEquation_eq_ok nonzero, ofEquation_eq_ok zero, unit, Vec.length_scaled positive,
      mul_div_mul_right _ _ positive.ne']

/-! ## The scan for the best vertex -/

/-- The scan's candidate, with its value scaled. -/
def scaledCandidate (s : α) : Point α n × α → Point α n × α := Prod.map id (· * s)

theorem keepBetter_scaled (positive : 0 < s) (direction : Vec α n) (best : Option (Point α n × α))
    (v : Point α n) :
    keepBetter (direction.scaled s) (best.map (scaledCandidate s)) v =
      (keepBetter direction best v).map (scaledCandidate s) := by
  cases best with
  | none => simp [keepBetter, scaledCandidate]
  | some best =>
    obtain ⟨p, value⟩ := best
    simp only [keepBetter, scaledCandidate, Option.map_some, Prod.map_apply, id, Vec.scaled_eval,
      mul_lt_mul_iff_left₀ positive]
    split <;> rfl

theorem bestVertex?_scaled (positive : 0 < s) (tol : Tolerance α) (direction : Vec α n)
    (halfSpaces : List (HalfSpace α n)) :
    bestVertex? tol (direction.scaled s) halfSpaces = bestVertex? tol direction halfSpaces := by
  have scan : (vertices tol halfSpaces).foldl (keepBetter (direction.scaled s)) none =
      ((vertices tol halfSpaces).foldl (keepBetter direction) none).map (scaledCandidate s) := by
    rw [← List.foldl_hom (Option.map (scaledCandidate s)) (keepBetter_scaled positive direction)]
    rfl
  rw [bestVertex?, bestVertex?, scan, Option.map_map]
  rfl

/-! ## Levels -/

/-- On the line only the sign of the objective counts. -/
theorem Interval.insert_scaled (positive : 0 < s) {tol : Tolerance α} (det : tol.det = 0) (c : α) :
    Interval.insert tol (c * s) = Interval.insert tol c := by
  have same_side : c * s < -tol.det ↔ c < -tol.det := by
    rw [det, neg_zero]
    exact ⟨fun product => neg_of_mul_neg_left product positive.le,
      fun falls => mul_neg_of_neg_of_pos falls positive⟩
  funext state h
  cases state with
  | none => rfl
  | some last => simp only [Interval.insert, settle, bestEnd, same_side]

namespace Level

section Above

variable {below : SolverOf σ α n} {tol : Tolerance α} {direction : Vec α (n + 1)}
  {accepted : List (HalfSpace α (n + 1))}

/-- The slice of the scaled direction is the slice of the direction. -/
theorem objectiveBounded_scaled (positive : 0 < s) (det : tol.det = 0)
    (halfSpaces : List (HalfSpace α (n + 1))) :
    objectiveBounded below tol (direction.scaled s) halfSpaces =
      objectiveBounded below tol direction halfSpaces := by
  have flat : (direction.scaled s).isZero tol.det = direction.isZero tol.det := by
    rw [det, Bool.eq_iff_iff, Vec.isZero_zero_iff, Vec.isZero_zero_iff, Vec.scaled_eq_zero_iff positive]
  rw [objectiveBounded_eq, objectiveBounded_eq, flat, Vec.length_scaled positive, ← neg_mul,
    Plane.ofEquation_scaled positive]

variable (same : ∀ halfSpaces c, below halfSpaces (c.scaled s) = below halfSpaces c)

include same

theorem descend_scaled (h : HalfSpace α (n + 1)) (bounded : Bool) :
    descend below tol (direction.scaled s) accepted h bounded =
      descend below tol direction accepted h bounded := by
  rw [descend_eq, descend_eq, Vec.scaled_reduce]
  match (Frame.on h.boundary).traces tol accepted with
  | none => rfl
  | some [] => rfl
  | some (r :: rs) => rw [askBelow, askBelow, same]

theorem keepOrDescend_scaled (h : HalfSpace α (n + 1)) (p : Point α (n + 1)) (bounded : Bool) :
    keepOrDescend below tol (direction.scaled s) accepted h p bounded =
      keepOrDescend below tol direction accepted h p bounded := by
  rw [keepOrDescend, keepOrDescend, descend_scaled same]

theorem insert_scaled (positive : 0 < s) (det : tol.det = 0) :
    insert below tol (direction.scaled s) = insert below tol direction := by
  funext accepted state h
  cases state with
  | none => rfl
  | some solution =>
    cases solution with
    | minimum p => exact keepOrDescend_scaled same h p true
    | ambiguous p =>
      show insertUnsettled below tol (direction.scaled s) accepted p h =
        insertUnsettled below tol direction accepted p h
      simp only [insertUnsettled_eq, objectiveBounded_scaled positive det, keepOrDescend_scaled same,
        descend_scaled same]
    | infeasible => rfl

end Above

variable [PickSource σ] {tol : Tolerance α}

theorem settle_scaled (positive : 0 < s) (direction : Vec α n) (accepted : List (HalfSpace α n))
    (solution : Solution α n) :
    settle tol (direction.scaled s) accepted solution = settle tol direction accepted solution := by
  cases solution with
  | ambiguous p => rw [settle, settle, bestVertex?_scaled positive]
  | minimum p => rfl
  | infeasible => rfl

theorem solveLine_scaled (positive : 0 < s) (det : tol.det = 0) (halfSpaces : List (HalfSpace α 1))
    (direction : Vec α 1) :
    (solveLine tol halfSpaces (direction.scaled s) : Run σ _) = solveLine tol halfSpaces direction := by
  simp only [solveLine, Vec.coord_scaled, Interval.insert_scaled positive det]

theorem solveAbove_scaled {below : SolverOf σ α n}
    (same : ∀ halfSpaces c, below halfSpaces (c.scaled s) = below halfSpaces c) (positive : 0 < s)
    (det : tol.det = 0) (halfSpaces : List (HalfSpace α (n + 1))) (direction : Vec α (n + 1)) :
    solveAbove below tol halfSpaces (direction.scaled s) = solveAbove below tol halfSpaces direction := by
  simp only [solveAbove, insert_scaled same positive det, settle_scaled positive]

/-- The scaled run and the other one are one function of the source, by induction on the dimension. -/
theorem solve_scaled (positive : 0 < s) (det : tol.det = 0) (n : Nat)
    (halfSpaces : List (HalfSpace α (n + 1))) (direction : Vec α (n + 1)) :
    (solve tol n halfSpaces (direction.scaled s) : Run σ _) = solve tol n halfSpaces direction := by
  induction n with
  | zero =>
    rw [solve, solve, if_pos (Vec.isFinite_eq_true _), if_pos (Vec.isFinite_eq_true _),
      solveLine_scaled positive det]
  | succ n ih =>
    rw [solve, solve, if_pos (Vec.isFinite_eq_true _), if_pos (Vec.isFinite_eq_true _),
      solveAbove_scaled ih positive det]

end Level

/-- **The scale of the objective is immaterial.** From the same words, the runs along a direction and along a
positive multiple of it end in the same solution, point and all, and have drawn the same number of words. -/
theorem solve_scaled_objective [WordSource σ] {halfSpaces : List (HalfSpace α (n + 1))}
    (nonempty : halfSpaces ≠ []) (direction : Vec α (n + 1)) {tol : Tolerance α} (det : tol.det = 0)
    (positive : 0 < s) (words : σ) :
    ∃ (solution : Solution α (n + 1)) (rest : σ) (drawn : Nat),
      solve (halfSpaces.map (Sigma.mk (n + 1))) ⟨n + 1, direction⟩ tol (⟨words, 0⟩ : Counted σ) =
        (.ok ⟨n + 1, solution⟩, ⟨rest, drawn⟩) ∧
      solve (halfSpaces.map (Sigma.mk (n + 1))) ⟨n + 1, direction.scaled s⟩ tol
        (⟨words, 0⟩ : Counted σ) = (.ok ⟨n + 1, solution⟩, ⟨rest, drawn⟩) := by
  have finishes := Level.solve_finishes (σ := Counted σ) (Level.allowsValues_exact det.ge) n halfSpaces
    direction nonempty
  obtain ⟨solution, ⟨rest, drawn⟩, run, -⟩ := finishes.ensures ⟨words, 0⟩
  refine ⟨solution, rest, drawn, solve_eq_of_level nonempty run, solve_eq_of_level nonempty ?_⟩
  rw [Level.solve_scaled positive det]
  exact run

theorem solve_scaled_quadrant_objective :
    quadrant ≠ [] ∧ (⟨0, 1 / 10⟩ : Tolerance ℝ).det = 0 ∧ (0 : ℝ) < 3 ∧
      ∃ (solution : Solution ℝ 2) (rest : ListedWords) (drawn : Nat),
        solve (quadrant.map (Sigma.mk 2)) ⟨2, ⟨#v[1, -2]⟩⟩ ⟨0, 1 / 10⟩
          (⟨⟨[7, 11]⟩, 0⟩ : Counted ListedWords) = (.ok ⟨2, solution⟩, ⟨rest, drawn⟩) ∧
        solve (quadrant.map (Sigma.mk 2)) ⟨2, Vec.scaled ⟨#v[1, -2]⟩ 3⟩ ⟨0, 1 / 10⟩
          (⟨⟨[7, 11]⟩, 0⟩ : Counted ListedWords) = (.ok ⟨2, solution⟩, ⟨rest, drawn⟩) :=
  have nonempty : quadrant ≠ [] := by simp [quadrant]
  ⟨nonempty, rfl, by norm_num, solve_scaled_objective nonempty _ rfl (by norm_num) _⟩

end LowDimLP
