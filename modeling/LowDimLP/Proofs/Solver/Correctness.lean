import LowDimLP.Proofs.Solver.Soundness
/-!
# What a run reports

Of every problem of normalised half-spaces, in exact arithmetic and without tolerances, from every source:
if the objective is bounded below on the intersection, a run reports an optimum (`solve_reports_optimum`); it
reports none exactly if the intersection is empty (`solve_infeasible_iff`); and if the objective is unbounded,
it reports the best vertex, or some feasible point when there are no vertices (`solve_reports_vertex`).
Normalised are exactly the half-spaces that an inequality builds (`HalfSpace.normalised_iff_built`).
-/

namespace LowDimLP

/-- The points of the plane with no positive coordinate. -/
noncomputable def quadrant : List (HalfSpace ℝ 2) :=
  [⟨⟨⟨#v[1, 0]⟩, 0, ⟨#v[0, 0]⟩⟩⟩, ⟨⟨⟨#v[0, 1]⟩, 0, ⟨#v[0, 0]⟩⟩⟩]

theorem quadrant_normalised : ∀ h ∈ quadrant, h.Normalised := by
  intro h hh
  simp only [quadrant, List.mem_cons, List.not_mem_nil, or_false] at hh
  rcases hh with rfl | rfl
  · refine ⟨?_, ?_⟩ <;> simp [Vec.dot_eq_sum, Vec.coord, Coords.get]
  · refine ⟨?_, ?_⟩ <;> simp [Vec.dot_eq_sum, Vec.coord, Coords.get]

theorem feasible_quadrant_iff (x : Point ℝ 2) :
    Feasible quadrant x ↔ x.coord 0 ≤ 0 ∧ x.coord 1 ≤ 0 := by
  simp [Feasible, quadrant, HalfSpace.Holds, Vec.eval_eq_sum le_rfl, Vec.coord, Coords.get]

theorem origin_mem_quadrant : Feasible quadrant Point.origin := by
  simp [feasible_quadrant_iff, Point.origin, Point.coord, Coords.get]

/-- Upwards in both coordinates the quadrant ends. -/
theorem quadrant_boundedBelow : BoundedBelow quadrant ⟨#v[-1, -1]⟩ := by
  refine ⟨0, fun x hx => ?_⟩
  obtain ⟨first, second⟩ := (feasible_quadrant_iff x).mp hx
  have value : (⟨#v[-1, -1]⟩ : Vec ℝ 2).eval x = -x.coord 0 + -x.coord 1 := by
    simp [Vec.eval_eq_sum le_rfl, Vec.coord, Coords.get]
  rw [value]
  linarith

/-- Along the first axis it does not. -/
theorem quadrant_not_boundedBelow : ¬BoundedBelow quadrant ⟨#v[1, 0]⟩ := by
  intro bounded
  refine bounded.not_hasDescent origin_mem_quadrant ⟨⟨#v[-1, 0]⟩, ?_, ?_⟩
  · simp [quadrant, Vec.dot_eq_sum, Vec.coord, Coords.get]
  · simp [Vec.dot_eq_sum, Vec.coord, Coords.get]

variable {σ α : Type} [PickSource σ] [ExactScalar α] {n : Nat}

theorem solve_exact_answers {halfSpaces : List (HalfSpace α (n + 1))} (direction : Vec α (n + 1))
    (nonempty : halfSpaces ≠ []) (normalised : ∀ h ∈ halfSpaces, h.Normalised) :
    (solve (halfSpaces.map (Sigma.mk (n + 1))) ⟨n + 1, direction⟩ Tolerance.exact :
      Run σ (AnySolution α)).Ensures fun answer => ∃ solution, answer = ⟨n + 1, solution⟩ ∧
        Solution.Answers halfSpaces direction solution :=
  solve_ensures nonempty (Level.solve_answers Tolerance.exact_det Tolerance.exact_feas n direction nonempty
    normalised)

section Bounded

variable {halfSpaces : List (HalfSpace α (n + 1))} {direction : Vec α (n + 1)}

/-- **Optimality.** When the half-spaces have a common point and bound the objective from below, a run
reports an optimum: as a minimum, or as ambiguous when it is the boundary point of a lone half-space. -/
theorem solve_reports_optimum (nonempty : halfSpaces ≠ [])
    (normalised : ∀ h ∈ halfSpaces, h.Normalised) (feasible : ∃ x, Feasible halfSpaces x)
    (bounded : BoundedBelow halfSpaces direction) :
    (solve (halfSpaces.map (Sigma.mk (n + 1))) ⟨n + 1, direction⟩ Tolerance.exact :
      Run σ (AnySolution α)).Ensures fun answer => ∃ p, IsOptimal halfSpaces direction p ∧
        (2 ≤ halfSpaces.length → answer = ⟨n + 1, .minimum p⟩) ∧
          ∀ h, halfSpaces = [h] → p = h.boundary.point ∧ answer = ⟨n + 1, .ambiguous p⟩ := by
  refine (solve_exact_answers direction nonempty normalised).mono ?_
  intro answer ⟨solution, reported, answers⟩
  obtain ⟨x, hx⟩ := feasible
  have level := bounded.not_hasDescent hx
  obtain ⟨p, point⟩ : ∃ p, solution.point? = some p :=
    Option.ne_none_iff_exists'.mp fun none => answers.empty none x hx
  refine ⟨p, answers.optimal p point level, fun many => ?_, fun h lone => ?_⟩
  · cases solution with
    | minimum q =>
      cases point
      exact reported
    | ambiguous q => exact absurd rfl (answers.settled many level q)
    | infeasible => cases point
  · obtain rfl := answers.lone h lone
    cases point
    exact ⟨rfl, reported⟩

theorem solve_quadrant_reports_optimum :
    quadrant ≠ [] ∧ (∀ h ∈ quadrant, h.Normalised) ∧ (∃ x, Feasible quadrant x) ∧
      BoundedBelow quadrant ⟨#v[-1, -1]⟩ ∧
      (solve (quadrant.map (Sigma.mk 2)) ⟨2, ⟨#v[-1, -1]⟩⟩ Tolerance.exact :
        Run ListedWords (AnySolution ℝ)).Ensures fun answer => ∃ p,
          IsOptimal quadrant ⟨#v[-1, -1]⟩ p ∧
            (2 ≤ quadrant.length → answer = ⟨2, .minimum p⟩) ∧
              ∀ h, quadrant = [h] → p = h.boundary.point ∧ answer = ⟨2, .ambiguous p⟩ :=
  have nonempty : quadrant ≠ [] := by simp [quadrant]
  ⟨nonempty, quadrant_normalised, ⟨_, origin_mem_quadrant⟩, quadrant_boundedBelow,
    solve_reports_optimum nonempty quadrant_normalised ⟨_, origin_mem_quadrant⟩
      quadrant_boundedBelow⟩

/-- **The verdict.** A run reports that nothing is feasible exactly if nothing is, and a point that it
reports is feasible, whether the objective is bounded or not. -/
theorem solve_infeasible_iff (nonempty : halfSpaces ≠ [])
    (normalised : ∀ h ∈ halfSpaces, h.Normalised) (direction : Vec α (n + 1)) :
    (solve (halfSpaces.map (Sigma.mk (n + 1))) ⟨n + 1, direction⟩ Tolerance.exact :
      Run σ (AnySolution α)).Ensures fun answer => ∃ solution, answer = ⟨n + 1, solution⟩ ∧
        (solution = .infeasible ↔ ∀ x, ¬Feasible halfSpaces x) ∧
          ∀ p, solution.point? = some p → Feasible halfSpaces p := by
  refine (solve_exact_answers direction nonempty normalised).mono ?_
  intro answer ⟨solution, reported, answers⟩
  refine ⟨solution, reported, ⟨?_, fun none => ?_⟩, answers.feasible⟩
  · intro verdict
    subst verdict
    exact answers.empty rfl
  · cases solution with
    | minimum p => exact absurd (answers.feasible p rfl) (none p)
    | ambiguous p => exact absurd (answers.feasible p rfl) (none p)
    | infeasible => rfl

theorem solve_quadrant_infeasible_iff :
    quadrant ≠ [] ∧ (∀ h ∈ quadrant, h.Normalised) ∧
      (solve (quadrant.map (Sigma.mk 2)) ⟨2, ⟨#v[1, 0]⟩⟩ Tolerance.exact :
        Run ListedWords (AnySolution ℝ)).Ensures fun answer => ∃ solution, answer = ⟨2, solution⟩ ∧
          (solution = .infeasible ↔ ∀ x, ¬Feasible quadrant x) ∧
            ∀ p, solution.point? = some p → Feasible quadrant p :=
  have nonempty : quadrant ≠ [] := by simp [quadrant]
  ⟨nonempty, quadrant_normalised, solve_infeasible_iff nonempty quadrant_normalised _⟩

end Bounded

/-- **The best vertex.** When at least two half-spaces above the line have a common point and leave the
objective unbounded, a run reports a vertex with the smallest value, or, when there are no vertices, some
feasible point as ambiguous. -/
theorem solve_reports_vertex {halfSpaces : List (HalfSpace α (n + 2))} {direction : Vec α (n + 2)}
    (many : 2 ≤ halfSpaces.length) (normalised : ∀ h ∈ halfSpaces, h.Normalised)
    (feasible : ∃ x, Feasible halfSpaces x) (unbounded : ¬BoundedBelow halfSpaces direction) :
    (solve (halfSpaces.map (Sigma.mk (n + 2))) ⟨n + 2, direction⟩ Tolerance.exact :
      Run σ (AnySolution α)).Ensures fun answer =>
        ((∃ v, IsVertex halfSpaces v) → ∃ v, answer = ⟨n + 2, .minimum v⟩ ∧
          IsVertex halfSpaces v ∧ ∀ w, IsVertex halfSpaces w → direction.eval v ≤ direction.eval w) ∧
        ((∀ v, ¬IsVertex halfSpaces v) → ∃ p, answer = ⟨n + 2, .ambiguous p⟩ ∧
          Feasible halfSpaces p) := by
  have nonempty : halfSpaces ≠ [] := List.ne_nil_of_length_pos (by omega)
  refine (solve_ensures nonempty
    (Level.solve_settles Tolerance.exact_det Tolerance.exact_feas direction nonempty normalised)).mono ?_
  intro answer ⟨solution, reported, accepted, last, settled, candidate, items, all⟩
  obtain ⟨x, hx⟩ := feasible
  have accepts : Feasible accepted x := fun h hh => hx h (items.subset hh)
  -- A run stops early only without a common point, so this one has accepted everything.
  have perm : accepted.Perm halfSpaces := by
    refine all.resolve_right fun stopped => ?_
    rw [stopped] at candidate
    cases candidate with
    | empty none => exact none x accepts
  obtain ⟨p, rfl, inside⟩ := candidate.ambiguous_of_unbounded (perm.length_eq ▸ many) accepts
    fun bounded => unbounded (bounded.perm perm)
  have units : ∀ h ∈ accepted, h.Normalised := fun h hh => normalised h (items.subset hh)
  rcases Level.settle_ambiguous Tolerance.exact_det Tolerance.exact_feas units direction p with
    ⟨v, replaced, vertex, least⟩ | ⟨kept, none⟩
  · rw [settled, replaced] at reported
    refine ⟨fun _ => ⟨v, reported, vertex.perm perm, fun w hw => least w (hw.perm perm.symm)⟩, ?_⟩
    exact fun none => absurd (vertex.perm perm) (none v)
  · rw [settled, kept] at reported
    refine ⟨fun ⟨v, vertex⟩ => absurd (vertex.perm perm.symm) (none v), fun _ => ?_⟩
    exact ⟨p, reported, (feasible_perm perm).mp inside⟩

theorem solve_quadrant_reports_vertex :
    2 ≤ quadrant.length ∧ (∀ h ∈ quadrant, h.Normalised) ∧ (∃ x, Feasible quadrant x) ∧
      ¬BoundedBelow quadrant ⟨#v[1, 0]⟩ ∧
      (solve (quadrant.map (Sigma.mk 2)) ⟨2, ⟨#v[1, 0]⟩⟩ Tolerance.exact :
        Run ListedWords (AnySolution ℝ)).Ensures fun answer =>
          ((∃ v, IsVertex quadrant v) → ∃ v, answer = ⟨2, .minimum v⟩ ∧ IsVertex quadrant v ∧
            ∀ w, IsVertex quadrant w →
              (⟨#v[1, 0]⟩ : Vec ℝ 2).eval v ≤ (⟨#v[1, 0]⟩ : Vec ℝ 2).eval w) ∧
          ((∀ v, ¬IsVertex quadrant v) → ∃ p, answer = ⟨2, .ambiguous p⟩ ∧ Feasible quadrant p) :=
  ⟨le_rfl, quadrant_normalised, ⟨_, origin_mem_quadrant⟩, quadrant_not_boundedBelow,
    solve_reports_vertex le_rfl quadrant_normalised ⟨_, origin_mem_quadrant⟩
      quadrant_not_boundedBelow⟩

end LowDimLP
