import Mathlib.Data.List.FinRange
import Mathlib.Data.List.Permutation
import Mathlib.SetTheory.Cardinal.Finite
import LowDimLP.Proofs.Solver.Insertion
import LowDimLP.Proofs.Solver.Branches
/-!
# The order of insertion

The pending items change places as they leave: the last one fills each gap. Still every order of the items
comes from exactly one sequence of picks (`positionOrder_bijective`), so picks that are uniform make every
order equally likely. A level's run visits the stands of its loop up to the last one, where it answers or a step fails
(`Level.solve_visits_stands`). The loop inserts in the order of the picks it draws (`Draws`), loses no half-space and
takes none twice, and accepts them all unless it finds that nothing is feasible (`Level.insertion_is_shuffle`).
Nothing here depends on the arithmetic.
-/

namespace LowDimLP

namespace Insertion

open scoped List

variable {σ ι κ β : Type}

/-! ## Orders and picks -/

theorem takeOut_map {n : Nat} (f : ι → κ) (items : Vector ι (n + 1)) (i : Fin (n + 1)) :
    takeOut (items.map f) i = (f (takeOut items i).1, (takeOut items i).2.map f) := by
  ext j hj
  · simp [takeOut]
  · simp [takeOut, Vector.getElem_set]

theorem order_map {n : Nat} (f : ι → κ) (items : Vector ι n) (picks : Picks n) :
    order (items.map f) picks = (order items picks).map f := by
  induction n with
  | zero => rfl
  | succ n ih =>
    obtain ⟨i, picks⟩ := picks
    simp only [order, takeOut_map, ih, List.map_cons]

/-- Every item leaves once. -/
theorem order_perm {n : Nat} (items : Vector ι n) (picks : Picks n) : order items picks ~ items.toList := by
  induction n with
  | zero => simp [order]
  | succ n ih =>
    obtain ⟨i, picks⟩ := picks
    exact ((ih (takeOut items i).2 picks).cons _).trans (takeOut_perm items i)

theorem nodup_takeOut {n : Nat} {items : Vector ι (n + 1)} (nodup : items.toList.Nodup) (i : Fin (n + 1)) :
    (takeOut items i).2.toList.Nodup :=
  (List.nodup_cons.mp ((takeOut_perm items i).nodup_iff.mpr nodup)).2

/-- Of distinct items, the order tells the picks: the first item tells the first pick, and with it what is
pending afterwards. -/
theorem order_injective {n : Nat} {items : Vector ι n} (nodup : items.toList.Nodup) :
    Function.Injective (order items) := by
  induction n with
  | zero => exact fun _ _ _ => rfl
  | succ n ih =>
    intro ⟨i, picks⟩ ⟨j, others⟩ same
    obtain ⟨first, later⟩ := List.cons.inj same
    obtain rfl : i = j := by
      have inside (k : Fin (n + 1)) : k.val < items.toList.length := items.length_toList.symm ▸ k.isLt
      have inside_i := inside i
      have inside_j := inside j
      have leaves : items.toList[i.val] = items.toList[j.val] := by simpa [takeOut] using first
      exact Fin.ext (nodup.getElem_inj_iff.mp leaves)
    rw [ih (nodup_takeOut nodup i) later]

/-- Every order of the items comes from some picks: the first item is pending somewhere, and the others are
an order of what is pending once it has left. -/
theorem exists_order_eq {n : Nat} {items : Vector ι n} {wanted : List ι} (perm : wanted ~ items.toList) :
    ∃ picks, order items picks = wanted := by
  induction n generalizing wanted with
  | zero =>
    have none_left : items.toList = [] := List.eq_nil_of_length_eq_zero items.length_toList
    rw [none_left] at perm
    exact ⟨(), perm.eq_nil.symm⟩
  | succ n ih =>
    match wanted with
    | [] => simpa using perm.length_eq
    | x :: later =>
      obtain ⟨place, inside, leaves⟩ := List.getElem_of_mem (perm.subset List.mem_cons_self)
      let i : Fin (n + 1) := ⟨place, by simpa using inside⟩
      have first : (takeOut items i).1 = x := by
        rw [← leaves]
        rfl
      have pending_perm : later ~ (takeOut items i).2.toList :=
        (perm.trans (first ▸ takeOut_perm items i).symm).cons_inv
      obtain ⟨picks, rest⟩ := ih pending_perm
      exact ⟨(i, picks), congrArg₂ List.cons first rest⟩

/-- The positions of `n` items. -/
def positions (n : Nat) : Vector (Fin n) n := Vector.ofFn id

theorem toList_positions (n : Nat) : (positions n).toList = List.finRange n := by
  rw [positions, Vector.toList_ofFn, List.ofFn_id]

/-- Items leave as their positions do. -/
theorem order_eq_map_positions {n : Nat} (items : Vector ι n) (picks : Picks n) :
    order items picks = (order (positions n) picks).map items.get := by
  have placed : (positions n).map items.get = items := by
    ext i hi
    simp [positions, Vector.get]
  rw [← order_map, placed]

/-- The order of the positions that the picks make. -/
def positionOrder {n : Nat} (picks : Picks n) : {l : List (Fin n) // l ~ List.finRange n} :=
  ⟨order (positions n) picks, toList_positions n ▸ order_perm _ picks⟩

/-- Every order of the positions comes from exactly one sequence of picks. -/
theorem positionOrder_bijective (n : Nat) : Function.Bijective (positionOrder : Picks n → _) := by
  constructor
  · intro picks others same
    have nodup : (positions n).toList.Nodup := toList_positions n ▸ List.nodup_finRange n
    exact order_injective nodup (congrArg Subtype.val same)
  · intro ⟨wanted, perm⟩
    obtain ⟨picks, rfl⟩ := exists_order_eq ((toList_positions n).symm ▸ perm)
    exact ⟨picks, rfl⟩

theorem card_orders (n : Nat) : Nat.card {l : List (Fin n) // l ~ List.finRange n} = n.factorial := by
  have listed : ∀ l : List (Fin n), l ∈ (List.finRange n).permutations.toFinset ↔ l ~ List.finRange n := by
    simp [List.mem_permutations]
  have distinct := List.nodup_permutations _ (List.nodup_finRange n)
  rw [Nat.subtype_card _ listed, List.toFinset_card_of_nodup distinct, List.length_permutations,
    List.length_finRange]

/-! ## The picks of a run -/

variable [PickSource σ] {step : List ι → Option β → ι → Run σ β} {stops : β → Bool}

/-- The picks that a run draws from a stand on, until nothing is pending. -/
inductive Draws (step : List ι → Option β → ι → Run σ β) (stops : β → Bool) :
    (stand : Stand σ ι β) → Picks stand.left → Stand σ ι β → Prop where
  | done {pending : Vector ι 0} {accepted : List ι} {state : Option β} {source : σ} :
      Draws step stops ⟨pending, accepted, state, source⟩ () ⟨pending, accepted, state, source⟩
  | pick {n : Nat} {pending : Vector ι (n + 1)} {accepted : List ι} {state : Option β} {source rest : σ}
      {i : Fin (n + 1)} {next : β} {picks : Picks n} {final : Stand σ ι β}
      (going : ¬Stand.Stopped stops ⟨pending, accepted, state, source⟩)
      (picked : (PickSource.pick source n).1 = i)
      (stepped : step accepted state (takeOut pending i).1 (PickSource.pick source n).2 = (.ok next, rest))
      (later : Draws step stops ⟨(takeOut pending i).2, accepted ++ [(takeOut pending i).1], some next, rest⟩
        picks final) :
      Draws step stops ⟨pending, accepted, state, source⟩ (i, picks) final

theorem exists_draws {a final : Stand σ ι β} (reaches : Reaches step stops a final) (done : final.left = 0) :
    ∃ picks, Draws step stops a picks final := by
  induction reaches using Relation.ReflTransGen.head_induction_on with
  | refl =>
    obtain @⟨left, pending, accepted, state, source⟩ := final
    obtain rfl : left = 0 := done
    exact ⟨(), .done⟩
  | head turn _ ih =>
    obtain ⟨picks, later⟩ := ih
    obtain ⟨going, picked, stepped⟩ := turn
    exact ⟨(_, picks), .pick going picked stepped later⟩

/-- The items are accepted in the order of the picks. -/
theorem Draws.accepted_eq {a final : Stand σ ι β} {picks : Picks a.left} (draws : Draws step stops a picks final) :
    final.accepted = a.accepted ++ order a.pending picks := by
  induction draws with
  | done => exact (List.append_nil _).symm
  | pick _ _ _ _ ih => rw [ih, List.append_assoc, List.singleton_append, order]

end Insertion

/-! ## The loop of a level -/

namespace Level

open Insertion

variable {σ α : Type}

/-- What the loop of a level carries along: the solution so far, on the line together with its range. -/
def Carried (α : Type) : Nat → Type
  | 0 => Interval α × Solution α 1
  | n + 1 => Solution α (n + 2)

def Carried.solution : {n : Nat} → Carried α n → Solution α (n + 1)
  | 0, state => state.2
  | _ + 1, state => state

/-- A level stops inserting once nothing is feasible. -/
def Carried.stops {n : Nat} (state : Carried α n) : Bool := state.solution.isInfeasible

variable [PickSource σ] [Scalar α]

/-- One insertion of a level. -/
def step (tol : Tolerance α) : (n : Nat) → Vec α (n + 1) → List (HalfSpace α (n + 1)) →
    Option (Carried α n) → HalfSpace α (n + 1) → Run σ (Carried α n)
  | 0, direction, _, state, h => pure (Interval.insert tol (direction.coord 0) state h)
  | n + 1, direction, accepted, state, h => insert (solve tol n) tol direction accepted state h

/-- The answer of a level, when its loop has ended. -/
def conclude (tol : Tolerance α) : (n : Nat) → Vec α (n + 1) →
    List (HalfSpace α (n + 1)) × Option (Carried α n) → Run σ (Solution α (n + 1))
  | _, _, (_, none) => throw .emptyConstraintSet
  | 0, _, (_, some state) => pure state.solution
  | _ + 1, direction, (accepted, some state) => pure (settle tol direction accepted state.solution)

/-- The stands that the loop of a level visits. -/
abbrev Visits {n : Nat} (tol : Tolerance α) (halfSpaces : List (HalfSpace α (n + 1))) (direction : Vec α (n + 1))
    (source : σ) (stand : Stand σ (HalfSpace α (n + 1)) (Carried α n)) : Prop :=
  Reaches (step tol n direction) Carried.stops (Stand.start (pending halfSpaces) source) stand

variable {tol : Tolerance α} {n : Nat} {halfSpaces : List (HalfSpace α (n + 1))} {direction : Vec α (n + 1)}

/-- Every level is one loop of insertions. -/
theorem solve_eq_loop (finite : direction.isFinite = true) :
    (solve tol n halfSpaces direction : Run σ _) =
      insertAll (step tol n direction) Carried.stops (pending halfSpaces) [] none >>=
        conclude tol n direction := by
  cases n with
  | zero =>
    rw [solve, if_pos finite, solveLine]
    congr 1
    funext ⟨accepted, state⟩
    cases state <;> rfl
  | succ n =>
    rw [solve, if_pos finite, solveAbove]
    congr 1
    funext ⟨accepted, state⟩
    cases state <;> rfl

theorem solve_of_not_finite (infinite : ¬direction.isFinite = true) (source : σ) :
    solve tol n halfSpaces direction source = (.error .nonFiniteDirection, source) := by
  cases n <;> (rw [solve, if_neg infinite]; rfl)

theorem isInfeasible_settle (accepted : List (HalfSpace α n)) (direction : Vec α n) (solution : Solution α n) :
    (settle tol direction accepted solution).isInfeasible = solution.isInfeasible := by
  cases solution with
  | ambiguous p =>
    rw [settle]
    cases bestVertex? tol direction accepted <;> rfl
  | minimum p => rfl
  | infeasible => rfl

omit [PickSource σ] in
/-- A level whose loop was stopped answers that nothing is feasible. -/
theorem conclude_of_stops {accepted : List (HalfSpace α (n + 1))} {state : Carried α n} {source rest : σ}
    {solution : Solution α (n + 1)} (stopped : state.stops = true)
    (answered : conclude tol n direction (accepted, some state) source = (.ok solution, rest)) :
    solution = .infeasible := by
  rw [← Solution.isInfeasible_iff]
  cases n with
  | zero =>
    cases answered
    exact stopped
  | succ n =>
    cases answered
    exact (isInfeasible_settle accepted direction _).trans stopped

/-- A level with a finite direction visits the stands of its loop. At the last one it concludes what it answers,
or the step on the half-space that is picked there fails, and the level with it. -/
theorem solve_visits_stands (finite : direction.isFinite = true) (source : σ) :
    ∃ last, Visits tol halfSpaces direction source last ∧
      (∀ stand, Visits tol halfSpaces direction source stand →
        Reaches (step tol n direction) Carried.stops stand last) ∧
      ((last.left = 0 ∨ last.Stopped Carried.stops) ∧ solve tol n halfSpaces direction source =
          conclude tol n direction (last.accepted, last.state) last.source ∨
        ∃ e rest, Fails (step tol n direction) last e rest ∧
          solve tol n halfSpaces direction source = (.error e, rest)) := by
  let start : Stand σ (HalfSpace α (n + 1)) (Carried α n) := Stand.start (pending halfSpaces) source
  have going : ¬start.Stopped Carried.stops := Stand.not_stopped_iff.mpr fun _ absent => by cases absent
  rw [solve_eq_loop finite]
  obtain ⟨last, reaches, ⟨ended, run⟩ | ⟨-, e, rest, fails, run⟩⟩ :=
    exists_last (step tol n direction) Carried.stops start going
  · exact ⟨last, reaches, fun _ => reaches_last (.inl ended) reaches, .inl ⟨ended, Run.bind_eq_of_ok run⟩⟩
  · exact ⟨last, reaches, fun _ => reaches_last (.inr ⟨e, rest, fails⟩) reaches,
      .inr ⟨e, rest, fails, Run.bind_eq_of_error run⟩⟩

/-- A level that answers, and not that nothing is feasible, has drawn a pick for every half-space, and answers
what it concludes from the stand where nothing is pending. -/
theorem exists_draws_of_solve {source rest : σ} {solution : Solution α (n + 1)}
    (answered : solve tol n halfSpaces direction source = (.ok solution, rest))
    (feasible : solution ≠ .infeasible) :
    ∃ (picks : Picks halfSpaces.length) (final : Stand σ (HalfSpace α (n + 1)) (Carried α n)),
      Draws (step tol n direction) Carried.stops (Stand.start (pending halfSpaces) source) picks final ∧
        conclude tol n direction (final.accepted, final.state) final.source = (.ok solution, rest) := by
  have finite : direction.isFinite = true := by
    by_contra infinite
    cases (solve_of_not_finite infinite source).symm.trans answered
  obtain ⟨last, reaches, -, ⟨ended, concludes⟩ | ⟨e, _, -, fails⟩⟩ := solve_visits_stands finite source
  · have concluded := concludes.symm.trans answered
    rcases ended with done | ⟨state, halted, stops⟩
    · obtain ⟨picks, draws⟩ := exists_draws reaches done
      exact ⟨picks, last, draws, concluded⟩
    · rw [halted] at concluded
      exact absurd (conclude_of_stops stops concluded) feasible
  · cases fails.symm.trans answered

/-- **Insertion is a shuffle.** With any arithmetic, at every stand of a level's loop the accepted and the pending
half-spaces are the given ones in some order. These are the stands of the level's run: it visits them up to a last
one, and answers what it concludes there, or fails with the step on the half-space that it picks there; a direction
that is not finite is refused before the first pick. A level that answers, and not that nothing is feasible, has
accepted all half-spaces, in the order of the picks it drew. And every order of their positions, of which there are
`m!`, comes from exactly one sequence of picks. -/
theorem insertion_is_shuffle (tol : Tolerance α) (n : Nat) (halfSpaces : List (HalfSpace α (n + 1)))
    (direction : Vec α (n + 1)) (source : σ) :
    (∀ stand, Visits tol halfSpaces direction source stand →
      (stand.accepted ++ stand.pending.toList).Perm halfSpaces) ∧
    (direction.isFinite = true → ∃ last, Visits tol halfSpaces direction source last ∧
      (∀ stand, Visits tol halfSpaces direction source stand →
        Reaches (step tol n direction) Carried.stops stand last) ∧
      ((last.left = 0 ∨ last.Stopped Carried.stops) ∧ solve tol n halfSpaces direction source =
          conclude tol n direction (last.accepted, last.state) last.source ∨
        ∃ e rest, Fails (step tol n direction) last e rest ∧
          solve tol n halfSpaces direction source = (.error e, rest))) ∧
    (¬direction.isFinite = true →
      solve tol n halfSpaces direction source = (.error .nonFiniteDirection, source)) ∧
    (∀ solution rest, solve tol n halfSpaces direction source = (.ok solution, rest) →
      solution ≠ .infeasible →
      ∃ (picks : Picks halfSpaces.length) (final : Stand σ (HalfSpace α (n + 1)) (Carried α n)),
        Draws (step tol n direction) Carried.stops (Stand.start (pending halfSpaces) source) picks final ∧
        conclude tol n direction (final.accepted, final.state) final.source = (.ok solution, rest) ∧
        final.accepted = (positionOrder picks).val.map halfSpaces.get ∧
        final.accepted.Perm halfSpaces) ∧
    Function.Bijective (positionOrder : Picks halfSpaces.length → _) ∧
    Nat.card {l : List (Fin halfSpaces.length) // l.Perm (List.finRange halfSpaces.length)} =
      halfSpaces.length.factorial := by
  refine ⟨fun stand reaches => perm_of_reaches reaches, fun finite => solve_visits_stands finite source,
    fun infinite => solve_of_not_finite infinite source, ?_, positionOrder_bijective _, card_orders _⟩
  intro solution rest answered feasible
  obtain ⟨picks, final, draws, concluded⟩ := exists_draws_of_solve answered feasible
  have accepted : final.accepted = order (pending halfSpaces) picks := draws.accepted_eq
  refine ⟨picks, final, draws, concluded, ?_, ?_⟩
  · exact accepted.trans (order_eq_map_positions (pending halfSpaces) picks)
  · exact accepted ▸ order_perm (pending halfSpaces) picks

end Level

end LowDimLP
