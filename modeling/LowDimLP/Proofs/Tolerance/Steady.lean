import Mathlib.Data.Set.Finite.Lattice
import LowDimLP.Proofs.Tolerance.Small
import LowDimLP.Proofs.Run
import LowDimLP.Proofs.Solver.Branches
/-!
# Runs under small tolerances

A run branches on its picks, and of the picks that one problem asks for there are finitely many. So a run
has finitely many answers, over all sources (`Run.answers`), and what follows one of its steps needs to be
steady for those only. The rules of `Run.Steady` carry this through a program, and with them every level is
steady (`Level.solve_steady`): for each problem, all tolerances close enough above `⟨0, feas⟩` give the
very run that `⟨0, feas⟩` gives, draw for draw.
-/

namespace LowDimLP

variable {σ α β γ : Type} [ExactScalar α] {feas : α}

namespace Run

/-- The values that a computation can give. -/
def answers (x : Run σ β) : Set β := {value | ∃ source rest, x source = (.ok value, rest)}

omit [ExactScalar α] in
theorem answers_pure_subset (value : β) : answers (pure value : Run σ β) ⊆ {value} := by
  intro v ⟨source, rest, run⟩
  cases run
  rfl

theorem answers_throw (e : SolverError) : answers (throw e : Run σ β) = ∅ := by
  ext v
  refine iff_of_false ?_ id
  intro ⟨source, rest, run⟩
  cases run

theorem answers_bind_subset (x : Run σ β) (f : β → Run σ γ) :
    answers (x >>= f) ⊆ ⋃ v ∈ answers x, answers (f v) := by
  intro w ⟨source, rest, run⟩
  rcases first : x source with ⟨result, middle⟩
  cases result with
  | ok v =>
    rw [bind_eq_of_ok first] at run
    exact Set.mem_biUnion ⟨source, middle, first⟩ ⟨middle, rest, run⟩
  | error e =>
    rw [bind_eq_of_error first] at run
    cases run

theorem bind_congr_answers {x : Run σ β} {f g : β → Run σ γ} (same : ∀ v ∈ answers x, f v = g v) :
    x >>= f = x >>= g := by
  funext source
  rcases first : x source with ⟨result, middle⟩
  cases result with
  | ok v => rw [bind_eq_of_ok first, bind_eq_of_ok first, same v ⟨source, middle, first⟩]
  | error e => rw [bind_eq_of_error first, bind_eq_of_error first]

/-- The run does not change between the threshold and the tolerances close above it, and has finitely many
answers there. -/
structure Steady (feas : α) (x : Tolerance α → Run σ β) : Prop where
  few : (answers (x ⟨0, feas⟩)).Finite
  same : LowDimLP.Steady feas x

namespace Steady

theorem pure' (value : β) : Steady feas fun _ => (pure value : Run σ β) where
  few := (Set.finite_singleton value).subset (answers_pure_subset value)
  same := .const _

theorem throw' (e : SolverError) : Steady feas fun _ => (throw e : Run σ β) where
  few := by simp [answers_throw]
  same := .const _

theorem pick' [PickSource σ] (n : Nat) : Steady feas fun _ => (pick n : Run σ (Fin (n + 1))) where
  few := Set.toFinite _
  same := .const _

theorem bind' {x : Tolerance α → Run σ β} {f : Tolerance α → β → Run σ γ} (hx : Steady feas x)
    (hf : ∀ v, Steady feas fun tol => f tol v) : Steady feas fun tol => x tol >>= f tol where
  few := (hx.few.biUnion fun v _ => (hf v).few).subset (answers_bind_subset _ _)
  same := by
    -- What follows has to be steady for the answers of the first part only, and those are few.
    have others := (Filter.eventually_all_finite hx.few).mpr fun v _ => (hf v).same
    filter_upwards [hx.same, others] with tol first others
    rw [first]
    exact bind_congr_answers others

theorem congr {x y : Tolerance α → Run σ β} (hy : Steady feas y)
    (agree : ∀ᶠ tol in Tolerance.above feas, x tol = y tol) : Steady feas x where
  few := Tolerance.of_eventually_above agree ▸ hy.few
  same := hy.same.congr agree

/-- A steady value may be replaced by the one at the threshold. -/
theorem subst {ι : Type} {f : Tolerance α → ι} {g : Tolerance α → ι → Run σ β}
    (hf : LowDimLP.Steady feas f) (hg : ∀ i, Steady feas fun tol => g tol i) :
    Steady feas fun tol => g tol (f tol) :=
  (hg (f ⟨0, feas⟩)).congr (hf.mono fun tol same => by rw [same])

theorem map_pure {f : Tolerance α → β} (hf : LowDimLP.Steady feas f) :
    Steady feas fun tol => (pure (f tol) : Run σ β) :=
  (pure' (f ⟨0, feas⟩)).congr (hf.mono fun tol same => by rw [same])

theorem ite' {c : Prop} [Decidable c] {x y : Tolerance α → Run σ β} (hx : Steady feas x)
    (hy : Steady feas y) : Steady feas fun tol => if c then x tol else y tol := by
  by_cases h : c
  · simpa only [if_pos h] using hx
  · simpa only [if_neg h] using hy

theorem ite_bool {b : Tolerance α → Bool} {x y : Tolerance α → Run σ β} (hb : LowDimLP.Steady feas b)
    (hx : Steady feas x) (hy : Steady feas y) : Steady feas fun tol => if b tol then x tol else y tol :=
  subst (g := fun tol (c : Bool) => if c then x tol else y tol) hb fun _ => ite' hx hy

end Steady

end Run

/-! ## Levels -/

namespace Level

variable {n : Nat}

theorem insertAll_steady [PickSource σ] {ι : Type} {step : Tolerance α → List ι → Option β → ι → Run σ β}
    {stops : β → Bool} (hstep : ∀ accepted state x, Run.Steady feas fun tol => step tol accepted state x)
    {left : Nat} (pending : Vector ι left) (accepted : List ι) (state : Option β) :
    Run.Steady feas fun tol => insertAll (step tol) stops pending accepted state := by
  induction left generalizing accepted state with
  | zero => exact Run.Steady.pure' _
  | succ left ih =>
    refine Run.Steady.bind' (Run.Steady.pick' left) fun i => ?_
    refine Run.Steady.bind' (hstep accepted state (Insertion.takeOut pending i).1) fun next => ?_
    exact Run.Steady.ite' (Run.Steady.pure' _) (ih _ _ _)

variable {below : Tolerance α → SolverOf σ α n} {direction : Vec α (n + 1)}

section Above

variable (hbelow : ∀ halfSpaces c, Run.Steady feas fun tol => below tol halfSpaces c)

include hbelow

/-- The traces do not change with the tolerance; after them only the level below depends on it. -/
theorem askBelow_steady (c : Vec α n) (missed unbounded : β) (reading : Solution α n → β)
    {traces : Tolerance α → Option (List (HalfSpace α n))} (htraces : LowDimLP.Steady feas traces) :
    Run.Steady feas fun tol => askBelow (below tol) c missed unbounded reading (traces tol) := by
  refine Run.Steady.subst (g := fun tol traces => askBelow (below tol) c missed unbounded reading traces)
    htraces fun traces => ?_
  match traces with
  | none => exact Run.Steady.pure' missed
  | some [] => exact Run.Steady.pure' unbounded
  | some (r :: rs) => exact Run.Steady.bind' (hbelow (r :: rs) c) fun _ => Run.Steady.pure' _

theorem descend_steady (accepted : List (HalfSpace α (n + 1))) (h : HalfSpace α (n + 1))
    (bounded : Bool) :
    Run.Steady feas fun tol => descend (below tol) tol direction accepted h bounded := by
  simp only [descend_eq]
  exact askBelow_steady hbelow _ _ _ _ (Frame.traces_steady _ accepted)

theorem objectiveBounded_steady (halfSpaces : List (HalfSpace α (n + 1))) :
    Run.Steady feas fun tol => objectiveBounded (below tol) tol direction halfSpaces := by
  simp only [objectiveBounded_eq]
  refine Run.Steady.ite_bool direction.isZero_steady (Run.Steady.pure' true) ?_
  cases Plane.ofEquation direction (-direction.length) with
  | error e => exact Run.Steady.throw' _
  | ok slice => exact askBelow_steady hbelow _ _ _ _ (Frame.traces_steady _ _)

theorem keepOrDescend_steady (accepted : List (HalfSpace α (n + 1))) (h : HalfSpace α (n + 1))
    (p : Point α (n + 1)) (bounded : Bool) :
    Run.Steady feas fun tol => keepOrDescend (below tol) tol direction accepted h p bounded :=
  Run.Steady.ite_bool (h.containsWithin_steady p) (Run.Steady.pure' _)
    (descend_steady hbelow accepted h bounded)

theorem insertUnsettled_steady (accepted : List (HalfSpace α (n + 1))) (p : Point α (n + 1))
    (h : HalfSpace α (n + 1)) :
    Run.Steady feas fun tol => insertUnsettled (below tol) tol direction accepted p h := by
  simp only [insertUnsettled_eq]
  refine Run.Steady.bind' ?_ fun settled => ?_
  · exact Run.Steady.ite' (objectiveBounded_steady hbelow accepted) (Run.Steady.pure' _)
  · refine Run.Steady.ite' (keepOrDescend_steady hbelow accepted h p true) ?_
    refine Run.Steady.bind' (objectiveBounded_steady hbelow _) fun bounded => ?_
    exact Run.Steady.ite' (descend_steady hbelow accepted h true)
      (keepOrDescend_steady hbelow accepted h p false)

theorem insert_steady (accepted : List (HalfSpace α (n + 1))) (state : Option (Solution α (n + 1)))
    (h : HalfSpace α (n + 1)) :
    Run.Steady feas fun tol => insert (below tol) tol direction accepted state h := by
  cases state with
  | none => exact Run.Steady.pure' _
  | some solution =>
    cases solution with
    | minimum p => exact keepOrDescend_steady hbelow accepted h p true
    | ambiguous p => exact insertUnsettled_steady hbelow accepted p h
    | infeasible => exact Run.Steady.pure' _

end Above

theorem settle_steady (direction : Vec α n) (accepted : List (HalfSpace α n)) (solution : Solution α n) :
    LowDimLP.Steady feas fun tol => settle tol direction accepted solution := by
  cases solution with
  | ambiguous p =>
    filter_upwards [bestVertex?_steady direction accepted] with tol same
    rw [settle, settle, same]
  | minimum p => exact .const _
  | infeasible => exact .const _

theorem solveLine_steady [PickSource σ] (halfSpaces : List (HalfSpace α 1)) (direction : Vec α 1) :
    Run.Steady feas fun tol => (solveLine tol halfSpaces direction : Run σ _) := by
  refine Run.Steady.bind' (insertAll_steady (fun accepted state h => ?_) _ _ _) fun answer => ?_
  · exact Run.Steady.map_pure (Interval.insert_steady _ state h)
  · obtain ⟨accepted, _ | ⟨range, solution⟩⟩ := answer
    · exact Run.Steady.throw' _
    · exact Run.Steady.pure' _

theorem solveAbove_steady [PickSource σ]
    (hbelow : ∀ halfSpaces c, Run.Steady feas fun tol => below tol halfSpaces c)
    (halfSpaces : List (HalfSpace α (n + 1))) (direction : Vec α (n + 1)) :
    Run.Steady feas fun tol => solveAbove (below tol) tol halfSpaces direction := by
  refine Run.Steady.bind' (insertAll_steady (insert_steady hbelow) _ _ _) fun answer => ?_
  obtain ⟨accepted, _ | solution⟩ := answer
  · exact Run.Steady.throw' _
  · exact Run.Steady.map_pure (settle_steady direction accepted solution)

/-- Every level is steady, by induction on the dimension. -/
theorem solve_steady [PickSource σ] (n : Nat) (halfSpaces : List (HalfSpace α (n + 1)))
    (direction : Vec α (n + 1)) :
    Run.Steady feas fun tol => (solve tol n halfSpaces direction : Run σ _) := by
  induction n with
  | zero => exact Run.Steady.ite' (solveLine_steady halfSpaces direction) (Run.Steady.throw' _)
  | succ n ih =>
    exact Run.Steady.ite' (solveAbove_steady ih halfSpaces direction) (Run.Steady.throw' _)

end Level

end LowDimLP
