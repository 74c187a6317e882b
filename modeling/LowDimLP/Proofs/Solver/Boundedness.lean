import LowDimLP.Proofs.Solver.Correctness
/-!
# Boundedness along a run

Whether anything descends is what the recession test decides (`objectiveBounded_decides`) and the tag of a
run's state remembers. Above the line, without tolerances, the tag tells the truth after every insertion,
because the candidate of every stand does (`candidate_of_leads`). A later stand has accepted all that an
earlier one has, so what was bounded stays bounded, and from one minimum to the next the value never
decreases (`boundedness_tracked`).
-/

namespace LowDimLP.Level

variable {σ α : Type} [ExactScalar α] {n : Nat}

/-- **The recession test is exact.** With the level below at its service it says that the objective is
bounded exactly if it falls along no direction that stays in all accepted half-spaces and in the new one, if
there is one. -/
theorem objectiveBounded_decides [PickSource σ] (direction : Vec α (n + 2))
    (accepted : List (HalfSpace α (n + 2))) (extra : Option (HalfSpace α (n + 2))) :
    (objectiveBounded (solve Tolerance.exact n) Tolerance.exact direction (accepted ++ extra.toList) :
      Run σ Bool).Ensures fun bounded => bounded = true ↔ ¬∃ d, direction.dot d < 0 ∧
        (∀ h ∈ accepted, h.boundary.normal.dot d ≤ 0) ∧ ∀ h ∈ extra, h.boundary.normal.dot d ≤ 0 := by
  refine (objectiveBounded_ensures (solve_sound Tolerance.exact_det Tolerance.exact_feas n)
    Tolerance.exact_det Tolerance.exact_feas).mono ?_
  intro bounded tested
  rw [tested, hasDescent_append_iff]
  simp only [Option.mem_toList, Option.mem_def]

section Tags

variable {direction : Vec α n} {accepted : List (HalfSpace α n)} {solution : Solution α n}

/-- A candidate for several half-spaces is a minimum exactly if nothing descends. -/
theorem Candidate.minimum_iff (candidate : Candidate direction accepted (some solution))
    (many : 2 ≤ accepted.length) (feasible : solution ≠ .infeasible) :
    (∃ p, solution = .minimum p) ↔ ¬HasDescent accepted direction := by
  cases candidate with
  | lone => simp at many
  | unbounded _ _ descent => exact iff_of_false (by simp) (not_not.mpr descent)
  | settled _ optimal => exact iff_of_true ⟨_, rfl⟩ optimal.not_hasDescent
  | empty => exact absurd rfl feasible

theorem Candidate.ambiguous_iff (candidate : Candidate direction accepted (some solution))
    (many : 2 ≤ accepted.length) (feasible : solution ≠ .infeasible) :
    (∃ p, solution = .ambiguous p) ↔ HasDescent accepted direction := by
  cases candidate with
  | lone => simp at many
  | unbounded _ _ descent => exact iff_of_true ⟨_, rfl⟩ descent
  | settled _ optimal => exact iff_of_false (by simp) optimal.not_hasDescent
  | empty => exact absurd rfl feasible

/-- With more half-spaces accepted, a minimum is followed by a minimum that is no smaller, or by none. -/
theorem Candidate.minimum_grows {p : Point α n} {more : List (HalfSpace α n)}
    {state : Option (Solution α n)} (before : Candidate direction accepted (some (.minimum p)))
    (longer : accepted <+: more) (after : Candidate direction more state) :
    state = some .infeasible ∨
      ∃ q, state = some (.minimum q) ∧ direction.eval p ≤ direction.eval q := by
  cases before with
  | settled many optimal =>
    have length := longer.length_le
    cases after with
    | nothing =>
      rw [List.length_nil] at length
      omega
    | lone =>
      rw [List.length_singleton] at length
      omega
    | unbounded _ _ descent =>
      obtain ⟨d, stays, falls⟩ := descent
      exact absurd ⟨d, fun h hh => stays h (longer.subset hh), falls⟩ optimal.not_hasDescent
    | @settled _ q _ later =>
      exact .inr ⟨q, rfl, optimal.le_eval q fun h hh => later.feasible h (longer.subset hh)⟩
    | empty => exact .inl rfl

end Tags

section Run

variable [PickSource σ] {tol : Tolerance α} {direction : Vec α (n + 2)}
  {halfSpaces : List (HalfSpace α (n + 2))} {source : σ}

/-- What a run holds between two insertions. -/
abbrev Stand (σ α : Type) (n : Nat) := Insertion.Stand σ (HalfSpace α n) (Solution α n)

/-- The insertions of a run above the line lead from one stand to the other. -/
abbrev Leads (tol : Tolerance α) (direction : Vec α (n + 2)) :
    Stand σ α (n + 2) → Stand σ α (n + 2) → Prop :=
  Insertion.Reaches (insert (solve tol n) tol direction) Solution.isInfeasible

/-- The first stand of a run, with all half-spaces pending. -/
abbrev Stand.first (halfSpaces : List (HalfSpace α n)) (source : σ) : Stand σ α n :=
  Insertion.Stand.start (pending halfSpaces) source

theorem candidate_of_leads (det : tol.det = 0) (feas : tol.feas = 0)
    (normalised : ∀ h ∈ halfSpaces, h.Normalised) {stand : Stand σ α (n + 2)}
    (leads : Leads tol direction (Stand.first halfSpaces source) stand) :
    Candidate direction stand.accepted stand.state :=
  Insertion.inv_of_reaches (insert_preserves (solve_sound det feas n) det feas normalised) leads
    (List.Subset.refl _) .nothing

/-- A run passes from stand to stand, and settles the last one. -/
theorem solve_eq_settle_last (det : tol.det = 0) (feas : tol.feas = 0) (nonempty : halfSpaces ≠ [])
    (normalised : ∀ h ∈ halfSpaces, h.Normalised) :
    ∃ stand state, Leads tol direction (Stand.first halfSpaces source) stand ∧
      stand.state = some state ∧ (stand.left = 0 ∨ state = .infeasible) ∧
        solve tol (n + 1) halfSpaces direction source =
          (.ok (settle tol direction stand.accepted state), stand.source) := by
  obtain ⟨final, last, leads, state, ended, run⟩ := Insertion.exists_end
    (insert_preserves (solve_sound det feas n) det feas normalised) .nothing (fun _ => Candidate.eq_nil) nonempty source
  refine ⟨final, last, leads, state, ended.imp id Solution.isInfeasible_iff.mp, ?_⟩
  rw [solve, if_pos direction.isFinite_eq_true]
  exact Run.bind_eq_of_ok run

end Run

/-- **Boundedness is tracked.** Above the line a run passes from stand to stand and settles the last one. At
every stand with several half-spaces accepted and no verdict of infeasibility, the state is a minimum exactly
if nothing descends, and ambiguous exactly if something does. So after a minimum there is never an ambiguous
state again, and the minima never fall. -/
theorem boundedness_tracked [PickSource σ] {halfSpaces : List (HalfSpace α (n + 2))}
    (nonempty : halfSpaces ≠ []) (normalised : ∀ h ∈ halfSpaces, h.Normalised)
    (direction : Vec α (n + 2)) (source : σ) :
    (∃ stand solution, Leads Tolerance.exact direction (Stand.first halfSpaces source) stand ∧
      stand.state = some solution ∧ (stand.left = 0 ∨ solution = .infeasible) ∧
        solve Tolerance.exact (n + 1) halfSpaces direction source =
          (.ok (settle Tolerance.exact direction stand.accepted solution), stand.source)) ∧
    (∀ stand, Leads Tolerance.exact direction (Stand.first halfSpaces source) stand →
      2 ≤ stand.accepted.length → ∀ solution, stand.state = some solution → solution ≠ .infeasible →
        ((∃ p, solution = .minimum p) ↔ ¬HasDescent stand.accepted direction) ∧
          ((∃ p, solution = .ambiguous p) ↔ HasDescent stand.accepted direction)) ∧
    ∀ a b, Leads Tolerance.exact direction (Stand.first halfSpaces source) a →
      Leads Tolerance.exact direction a b → ∀ p, a.state = some (.minimum p) →
        b.state = some .infeasible ∨
          ∃ q, b.state = some (.minimum q) ∧ direction.eval p ≤ direction.eval q := by
  refine ⟨solve_eq_settle_last Tolerance.exact_det Tolerance.exact_feas nonempty normalised, ?_, ?_⟩
  · intro stand leads many solution state feasible
    have candidate := candidate_of_leads Tolerance.exact_det Tolerance.exact_feas normalised leads
    rw [state] at candidate
    exact ⟨candidate.minimum_iff many feasible, candidate.ambiguous_iff many feasible⟩
  · intro a b to_a to_b p state
    have before := candidate_of_leads Tolerance.exact_det Tolerance.exact_feas normalised to_a
    have after := candidate_of_leads Tolerance.exact_det Tolerance.exact_feas normalised
      (to_a.trans to_b)
    rw [state] at before
    exact before.minimum_grows (Insertion.accepted_prefix_of_reaches to_b) after

theorem boundedness_tracked_quadrant :
    quadrant ≠ [] ∧ (∀ h ∈ quadrant, h.Normalised) ∧
    (∃ stand solution,
      Leads Tolerance.exact ⟨#v[1, 0]⟩ (Stand.first quadrant (⟨[]⟩ : ListedWords)) stand ∧
      stand.state = some solution ∧ (stand.left = 0 ∨ solution = .infeasible) ∧
        solve Tolerance.exact 1 quadrant ⟨#v[1, 0]⟩ (⟨[]⟩ : ListedWords) =
          (.ok (settle Tolerance.exact ⟨#v[1, 0]⟩ stand.accepted solution), stand.source)) ∧
    (∀ stand, Leads Tolerance.exact ⟨#v[1, 0]⟩ (Stand.first quadrant (⟨[]⟩ : ListedWords)) stand →
      2 ≤ stand.accepted.length → ∀ solution, stand.state = some solution → solution ≠ .infeasible →
        ((∃ p, solution = .minimum p) ↔ ¬HasDescent stand.accepted ⟨#v[1, 0]⟩) ∧
          ((∃ p, solution = .ambiguous p) ↔ HasDescent stand.accepted ⟨#v[1, 0]⟩)) ∧
    ∀ a b, Leads Tolerance.exact ⟨#v[1, 0]⟩ (Stand.first quadrant (⟨[]⟩ : ListedWords)) a →
      Leads Tolerance.exact ⟨#v[1, 0]⟩ a b → ∀ p, a.state = some (.minimum p) →
        b.state = some .infeasible ∨ ∃ q, b.state = some (.minimum q) ∧
          (⟨#v[1, 0]⟩ : Vec ℝ 2).eval p ≤ (⟨#v[1, 0]⟩ : Vec ℝ 2).eval q :=
  have nonempty : quadrant ≠ [] := by simp [quadrant]
  ⟨nonempty, quadrant_normalised,
    boundedness_tracked nonempty quadrant_normalised ⟨#v[1, 0]⟩ (⟨[]⟩ : ListedWords)⟩

end LowDimLP.Level
