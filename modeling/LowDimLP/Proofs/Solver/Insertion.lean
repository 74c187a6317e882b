import Mathlib.Data.List.Perm.Basic
import Mathlib.Data.Vector.Basic
import Mathlib.Logic.Relation
import LowDimLP.Proofs.Run
/-!
# The loop of random insertion, turn by turn

`insertAll` runs its loop in one call. Here the loop is cut into turns: a `Stand` is what the loop holds
between two insertions, and `Turn` relates a stand to the next one, by one pick, the item it takes out and
the step on that item. `insertAll` at a stand is `insertAll` at the next (`run_eq_of_turn`), so a run goes from
stand to stand until nothing is pending, a state stops it or a step fails (`exists_last`); there it turns no
further, so all stands that it passes come before that one (`reaches_last`). What one turn preserves holds at
every stand it passes, and at its end (`exists_final`). At every stand the accepted and the
pending items together are the items at the start, in some order (`perm_of_reaches`).
-/

namespace LowDimLP.Insertion

open scoped List

variable {σ ι β : Type}

/-- What the loop holds between two insertions. -/
structure Stand (σ ι β : Type) where
  {left : Nat}
  pending : Vector ι left
  accepted : List ι
  state : Option β
  source : σ

/-- The items of a stand: those accepted, then those pending. -/
def Stand.items (stand : Stand σ ι β) : List ι := stand.accepted ++ stand.pending.toList

theorem Stand.items_eq_accepted {stand : Stand σ ι β} (done : stand.left = 0) :
    stand.items = stand.accepted := by
  obtain @⟨left, pending, accepted, state, source⟩ := stand
  obtain rfl : left = 0 := done
  simp [items]

/-- The loop stops at this state. -/
def Stand.Stopped (stops : β → Bool) (stand : Stand σ ι β) : Prop :=
  ∃ state, stand.state = some state ∧ stops state = true

theorem Stand.not_stopped_iff {stops : β → Bool} {stand : Stand σ ι β} :
    ¬stand.Stopped stops ↔ ∀ state, stand.state = some state → stops state = false := by
  simp [Stopped]

variable [PickSource σ] {step : List ι → Option β → ι → Run σ β} {stops : β → Bool}

/-- One insertion: a pick below the number of pending items, and the step on the item it takes out. The
loop does not turn at a state that stops it. -/
inductive Turn (step : List ι → Option β → ι → Run σ β) (stops : β → Bool) :
    Stand σ ι β → Stand σ ι β → Prop where
  | insertion {n : Nat} {pending : Vector ι (n + 1)} {accepted : List ι} {state : Option β}
      {source rest : σ} {i : Fin (n + 1)} {next : β}
      (going : ¬Stand.Stopped stops ⟨pending, accepted, state, source⟩)
      (picked : (PickSource.pick source n).1 = i)
      (stepped : step accepted state (takeOut pending i).1 (PickSource.pick source n).2 =
        (.ok next, rest)) :
      Turn step stops ⟨pending, accepted, state, source⟩
        ⟨(takeOut pending i).2, accepted ++ [(takeOut pending i).1], some next, rest⟩

/-- The stands a run passes, from a given one on. -/
abbrev Reaches (step : List ι → Option β → ι → Run σ β) (stops : β → Bool) :
    Stand σ ι β → Stand σ ι β → Prop :=
  Relation.ReflTransGen (Turn step stops)

/-- Where the loop begins. -/
def Stand.start {n : Nat} (pending : Vector ι n) (source : σ) : Stand σ ι β :=
  ⟨pending, [], none, source⟩

/-- The last item fills the gap that another leaves, or is itself the one that leaves. -/
theorem fill_gap_perm {items front : List ι} {last : ι} (split : items = front ++ [last]) {i : Nat}
    (hi : i < items.length) : items[i] :: (items.set i last).dropLast ~ items := by
  subst split
  by_cases inner : i < front.length
  · -- The last item takes the place of the one that leaves.
    rw [List.getElem_append_left inner, List.set_append_left i last inner, List.dropLast_concat]
    calc front[i] :: front.set i last
        _ ~ front[i] :: last :: front.eraseIdx i := (List.set_perm_cons_eraseIdx inner last).cons _
        _ ~ last :: front[i] :: front.eraseIdx i := List.Perm.swap _ _ _
        _ ~ last :: front := (List.getElem_cons_eraseIdx_perm inner).cons _
        _ ~ front ++ [last] := (List.perm_append_singleton _ _).symm
  · have at_end : i = front.length := by
      rw [List.length_append, List.length_singleton] at hi
      omega
    subst at_end
    simpa using (List.perm_append_singleton last front).symm

theorem toList_takeOut {n : Nat} (items : Vector ι (n + 1)) (i : Fin (n + 1)) (last : n < n + 1) :
    (takeOut items i).2.toList = (items.toList.set i items[n]).dropLast := by
  rw [takeOut, ← Vector.toList_toArray, Vector.toArray_pop, Array.toList_pop,
    Vector.toList_toArray, Vector.toList_set]

/-- Taking an item out loses nothing. -/
theorem takeOut_perm {n : Nat} (items : Vector ι (n + 1)) (i : Fin (n + 1)) :
    (takeOut items i).1 :: (takeOut items i).2.toList ~ items.toList := by
  have nonempty : items.toList ≠ [] := by simp
  have last : items[n] = items.toList.getLast nonempty := by
    simp [List.getLast_eq_getElem]
  have split : items.toList = items.toList.dropLast ++ [items[n]] := by
    rw [last, List.dropLast_append_getLast]
  have inside : i.val < items.toList.length := by
    rw [Vector.length_toList]
    exact i.isLt
  have taken : (takeOut items i).1 = items.toList[i.val] := by
    rw [takeOut, Vector.getElem_toList]
    rfl
  rw [taken, toList_takeOut items i n.lt_succ_self]
  exact fill_gap_perm split inside

theorem takeOut_mem {n : Nat} (items : Vector ι (n + 1)) (i : Fin (n + 1)) :
    (takeOut items i).1 ∈ items.toList :=
  (takeOut_perm items i).mem_iff.mp List.mem_cons_self

theorem perm_of_turn {a b : Stand σ ι β} (turn : Turn step stops a b) : b.items ~ a.items := by
  obtain ⟨-, -, -⟩ := turn
  simp only [Stand.items, List.append_assoc, List.singleton_append]
  exact List.Perm.append_left _ (takeOut_perm _ _)

theorem perm_of_reaches {a b : Stand σ ι β} (reaches : Reaches step stops a b) :
    b.items ~ a.items := by
  induction reaches with
  | refl => exact List.Perm.refl _
  | tail _ turn ih => exact (perm_of_turn turn).trans ih

/-- Accepted items stay accepted, in their order. -/
theorem accepted_prefix_of_reaches {a b : Stand σ ι β} (reaches : Reaches step stops a b) :
    a.accepted <+: b.accepted := by
  induction reaches with
  | refl => exact List.prefix_rfl
  | tail _ turn ih =>
    obtain ⟨-, -, -⟩ := turn
    exact ih.trans (List.prefix_append _ _)

/-- What the loop answers from a stand. -/
def Stand.run (step : List ι → Option β → ι → Run σ β) (stops : β → Bool) (stand : Stand σ ι β) :
    Except SolverError (List ι × Option β) × σ :=
  insertAll step stops stand.pending stand.accepted stand.state stand.source

/-- A turn of the loop, as `insertAll` takes it. -/
theorem run_eq_of_step {n : Nat} {pending : Vector ι (n + 1)} {accepted : List ι} {state : Option β}
    {source rest : σ} {next : β}
    (stepped : step accepted state (takeOut pending (PickSource.pick source n).1).1
      (PickSource.pick source n).2 = (.ok next, rest)) :
    insertAll step stops pending accepted state source =
      if stops next then
        (.ok (accepted ++ [(takeOut pending (PickSource.pick source n).1).1], some next), rest)
      else insertAll step stops (takeOut pending (PickSource.pick source n).1).2
        (accepted ++ [(takeOut pending (PickSource.pick source n).1).1]) (some next) rest := by
  rw [insertAll, Run.bind_eq_of_ok (Run.pick_eq n source)]
  refine (Run.bind_eq_of_ok stepped).trans ?_
  split <;> rfl

theorem run_eq_of_turn {a b : Stand σ ι β} (turn : Turn step stops a b)
    (going : ¬b.Stopped stops) : a.run step stops = b.run step stops := by
  obtain @⟨n, pending, accepted, state, source, rest, i, next, -, rfl, stepped⟩ := turn
  have goes_on : ¬stops next = true := fun halts => going ⟨next, rfl, halts⟩
  refine (run_eq_of_step stepped).trans ?_
  rw [if_neg goes_on]
  rfl

theorem run_eq_of_turn_stopped {a b : Stand σ ι β} (turn : Turn step stops a b)
    (stopped : b.Stopped stops) : a.run step stops = (.ok (b.accepted, b.state), b.source) := by
  obtain @⟨n, pending, accepted, state, source, rest, i, next, -, rfl, stepped⟩ := turn
  obtain ⟨_, ⟨⟩, halts⟩ := stopped
  refine (run_eq_of_step stepped).trans ?_
  rw [if_pos halts]

/-- The step on the item that is picked at the stand fails. -/
inductive Fails (step : List ι → Option β → ι → Run σ β) :
    Stand σ ι β → SolverError → σ → Prop where
  | step {n : Nat} {pending : Vector ι (n + 1)} {accepted : List ι} {state : Option β}
      {source rest : σ} {e : SolverError}
      (failed : step accepted state (takeOut pending (PickSource.pick source n).1).1
        (PickSource.pick source n).2 = (.error e, rest)) :
      Fails step ⟨pending, accepted, state, source⟩ e rest

theorem run_eq_of_fails {a : Stand σ ι β} {e : SolverError} {rest : σ} (fails : Fails step a e rest) :
    a.run step stops = (.error e, rest) := by
  obtain @⟨n, pending, accepted, state, source, _, _, failed⟩ := fails
  rw [Stand.run, insertAll, Run.bind_eq_of_ok (Run.pick_eq n source)]
  exact Run.bind_eq_of_error failed

/-- A run passes from stand to stand until nothing is pending, a state stops it, or a step fails. It answers
what the last stand holds, or fails as its last step. The induction is on the number of pending items. -/
theorem exists_last (step : List ι → Option β → ι → Run σ β) (stops : β → Bool) (stand : Stand σ ι β)
    (going : ¬stand.Stopped stops) :
    ∃ last, Reaches step stops stand last ∧
      ((last.left = 0 ∨ last.Stopped stops) ∧
          stand.run step stops = (.ok (last.accepted, last.state), last.source) ∨
        ¬last.Stopped stops ∧ ∃ e rest, Fails step last e rest ∧ stand.run step stops = (.error e, rest)) := by
  obtain @⟨n, pending, accepted, state, source⟩ := stand
  induction n generalizing accepted state source with
  | zero => exact ⟨_, .refl, .inl ⟨.inl rfl, rfl⟩⟩
  | succ n ih =>
    match stepped : step accepted state (takeOut pending (PickSource.pick source n).1).1
        (PickSource.pick source n).2 with
    | (.error e, rest) => exact ⟨_, .refl, .inr ⟨going, e, rest, ⟨stepped⟩, run_eq_of_fails ⟨stepped⟩⟩⟩
    | (.ok next, rest) =>
      have turn := Turn.insertion going rfl stepped
      by_cases stopped : Stand.Stopped stops ⟨(takeOut pending (PickSource.pick source n).1).2,
          accepted ++ [(takeOut pending (PickSource.pick source n).1).1], some next, rest⟩
      · exact ⟨_, .single turn, .inl ⟨.inr stopped, run_eq_of_turn_stopped turn stopped⟩⟩
      · obtain ⟨last, reaches, ended⟩ := ih _ _ _ _ stopped
        rw [← run_eq_of_turn turn stopped] at ended
        exact ⟨last, .head turn reaches, ended⟩

/-- The pick and the step decide the next stand. -/
theorem turn_rightUnique : Relator.RightUnique (Turn step stops) := by
  intro a b c turn other
  obtain @⟨n, pending, accepted, state, source, rest, i, next, -, rfl, stepped⟩ := turn
  obtain ⟨-, rfl, stepped'⟩ := other
  cases stepped.symm.trans stepped'
  rfl

/-- Where a run has ended it does not turn. -/
theorem not_turn_of_ended {last next : Stand σ ι β}
    (ended : (last.left = 0 ∨ last.Stopped stops) ∨ ∃ e rest, Fails step last e rest) :
    ¬Turn step stops last next := by
  rintro ⟨going, rfl, stepped⟩
  rcases ended with (done | stopped) | ⟨e, rest, ⟨failed⟩⟩
  · cases done
  · exact going stopped
  · cases stepped.symm.trans failed

/-- A run has one last stand, and every stand that it passes comes before that one. -/
theorem reaches_last {start stand last : Stand σ ι β}
    (ended : (last.left = 0 ∨ last.Stopped stops) ∨ ∃ e rest, Fails step last e rest)
    (ends : Reaches step stops start last) (passes : Reaches step stops start stand) :
    Reaches step stops stand last := by
  rcases Relation.ReflTransGen.total_of_right_unique turn_rightUnique passes ends with before | after
  · exact before
  · rcases Relation.ReflTransGen.cases_head after with rfl | ⟨next, turn, -⟩
    · exact .refl
    · exact absurd turn (not_turn_of_ended ended)

/-- What one step preserves, over the given items, from every state that does not stop the loop. -/
def Preserves (step : List ι → Option β → ι → Run σ β) (stops : β → Bool) (items : List ι)
    (Inv : List ι → Option β → Prop) : Prop :=
  ∀ accepted state x, Inv accepted state → (∀ s, state = some s → stops s = false) → x ∈ items →
    (step accepted state x).Ensures fun next => Inv (accepted ++ [x]) (some next)

section Invariants

variable {items : List ι} {Inv : List ι → Option β → Prop}

theorem inv_of_turn (preserves : Preserves step stops items Inv) {a b : Stand σ ι β}
    (turn : Turn step stops a b) (all : a.items ⊆ items) (inv : Inv a.accepted a.state) :
    Inv b.accepted b.state := by
  obtain @⟨n, pending, accepted, state, source, rest, i, next, going, -, stepped⟩ := turn
  have item := all (List.mem_append_right accepted (takeOut_mem pending i))
  obtain ⟨value, rest', stepped', inv'⟩ := preserves accepted state _ inv
    (Stand.not_stopped_iff.mp going) item (PickSource.pick source n).2
  rw [stepped] at stepped'
  cases stepped'
  exact inv'

/-- What every step preserves holds at every stand of a run. -/
theorem inv_of_reaches (preserves : Preserves step stops items Inv) {a b : Stand σ ι β}
    (reaches : Reaches step stops a b) (all : a.items ⊆ items) (inv : Inv a.accepted a.state) :
    Inv b.accepted b.state := by
  induction reaches with
  | refl => exact inv
  | tail reaches turn ih =>
    exact inv_of_turn preserves turn (List.Subset.trans (perm_of_reaches reaches).subset all) ih

/-- When no step fails, a run passes from stand to stand until nothing is pending or a state stops it,
and answers what the last stand holds. -/
theorem exists_final (preserves : Preserves step stops items Inv) (stand : Stand σ ι β)
    (all : stand.items ⊆ items) (inv : Inv stand.accepted stand.state)
    (going : ¬stand.Stopped stops) :
    ∃ final, Reaches step stops stand final ∧ (final.left = 0 ∨ final.Stopped stops) ∧
      stand.run step stops = (.ok (final.accepted, final.state), final.source) := by
  obtain ⟨last, reaches, ⟨ended, run⟩ | ⟨going, e, rest, fails, -⟩⟩ := exists_last step stops stand going
  · exact ⟨last, reaches, ended, run⟩
  · -- The invariant has reached the last stand, and there the step does not fail.
    have inv := inv_of_reaches preserves reaches all inv
    have within := List.Subset.trans (perm_of_reaches reaches).subset all
    obtain @⟨n, pending, accepted, state, source, _, _, failed⟩ := fails
    have item := within (List.mem_append_right accepted (takeOut_mem pending (PickSource.pick source n).1))
    obtain ⟨next, rest', stepped, -⟩ := preserves accepted state _ inv (Stand.not_stopped_iff.mp going) item
      (PickSource.pick source n).2
    rw [failed] at stepped
    cases stepped

variable {n : Nat} {pending : Vector ι n}

/-- A whole run ends in some state, if there is an item to insert and the invariant has no state only before
the first insertion. -/
theorem exists_end (preserves : Preserves step stops pending.toList Inv) (inv : Inv [] none)
    (unstarted : ∀ accepted, Inv accepted none → accepted = []) (nonempty : pending.toList ≠ [])
    (source : σ) :
    ∃ final state, Reaches step stops (Stand.start pending source) final ∧
      final.state = some state ∧ (final.left = 0 ∨ stops state = true) ∧
        insertAll step stops pending [] none source =
          (.ok (final.accepted, some state), final.source) := by
  let start : Stand σ ι β := Stand.start pending source
  have all : start.items ⊆ pending.toList := List.Subset.refl _
  have going : ¬start.Stopped stops := Stand.not_stopped_iff.mpr fun _ absent => by cases absent
  obtain ⟨final, reaches, ended, run⟩ := exists_final preserves start all inv going
  have reached := inv_of_reaches preserves reaches all inv
  have items : final.items ~ pending.toList := perm_of_reaches reaches
  cases state : final.state with
  | none =>
    rw [state] at reached
    rcases ended with done | ⟨_, halted, -⟩
    · rw [Stand.items_eq_accepted done, unstarted _ reached] at items
      exact absurd items.nil_eq.symm nonempty
    · rw [state] at halted
      cases halted
  | some last =>
    refine ⟨final, last, reaches, state, ended.imp id ?_, state ▸ run⟩
    intro ⟨_, halted, halts⟩
    rw [state] at halted
    cases halted
    exact halts

/-- What every step preserves holds of a whole run's answer, and every item is accepted unless the last
state stopped the loop. -/
theorem insertAll_ensures (preserves : Preserves step stops pending.toList Inv) (inv : Inv [] none)
    (unstarted : ∀ accepted, Inv accepted none → accepted = []) (nonempty : pending.toList ≠ []) :
    (insertAll step stops pending [] none).Ensures fun answer =>
      ∃ state, answer.2 = some state ∧ Inv answer.1 (some state) ∧ answer.1 <+~ pending.toList ∧
        (answer.1 ~ pending.toList ∨ stops state = true) := by
  intro source
  obtain ⟨final, last, reaches, state, ended, run⟩ :=
    exists_end preserves inv unstarted nonempty source
  have items : final.items ~ pending.toList := perm_of_reaches reaches
  refine ⟨_, _, run, last, rfl, ?_, ?_, ended.imp (fun done => ?_) id⟩
  · exact state ▸ inv_of_reaches preserves reaches (List.Subset.refl _) inv
  · exact (List.sublist_append_left _ _).subperm.trans items.subperm
  · rwa [Stand.items_eq_accepted done] at items

end Invariants

end LowDimLP.Insertion
