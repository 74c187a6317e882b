import LowDimLP.Proofs.Solver.Insertion
import LowDimLP.Proofs.Checked.Row
/-!
# Checked runs

A checked run may fail as a plain run may, and beyond that a fault may stop it. `Agrees read x y`: from every
source the checked run `x` ends without a fault, in the value, error and source in which the plain run `y`
ends, its value as `read` sees it. The rules follow the program; random insertion is the one loop, and agrees
when each of its steps does (`insertAll_agrees`).
-/

namespace LowDimLP.Checked

/-- A computation of a run with its checks. -/
abbrev Run (σ : Type) := ExceptT SolverError (StateT σ (Except Fault))

variable {σ ι κ β γ δ : Type}

namespace Run

/-- Goes on with the value of a check. -/
def check (x : Except Fault β) : Run σ β := fun source => x.map fun value => (.ok value, source)

/-- Draws an index below a bound, of which there must be one. -/
def pick [PickSource σ] : Nat → Run σ Nat
  | 0 => check (.error (.outOfRange 0 0))
  | n + 1 => fun source => .ok (.ok (PickSource.pick source n).1, (PickSource.pick source n).2)

/-- The checked run ends without a fault, and as the plain run does. -/
def Agrees (read : β → γ) (x : Run σ γ) (y : LowDimLP.Run σ β) : Prop :=
  ∀ source, x source = .ok ((y source).1.map read, (y source).2)

namespace Agrees

variable {read : β → γ}

theorem pure' {value : β} {result : γ} (seen : read value = result) :
    Agrees read (pure result : Run σ γ) (pure value) := by
  subst seen
  exact fun _ => rfl

theorem throw' (e : SolverError) : Agrees read (throw e : Run σ γ) (throw e) := fun _ => rfl

theorem bind' {ζ : Type} {x : Run σ γ} {y : LowDimLP.Run σ β} {f : γ → Run σ ζ} {g : β → LowDimLP.Run σ δ}
    {after : δ → ζ} (first : Agrees read x y) (rest : ∀ value, Agrees after (f (read value)) (g value)) :
    Agrees after (x >>= f) (y >>= g) := by
  intro source
  show (x source >>= fun answer => (ExceptT.bindCont f answer.1 : StateT σ (Except Fault) _) answer.2) = _
  rw [first source, ok_bind]
  cases plain : y source with
  | mk answer middle =>
    cases answer with
    | ok value =>
      rw [LowDimLP.Run.bind_eq_of_ok plain]
      exact rest value middle
    | error e =>
      rw [LowDimLP.Run.bind_eq_of_error plain]
      rfl

theorem map' {ζ : Type} {x : Run σ γ} {y : LowDimLP.Run σ β} (agrees : Agrees read x y) (f : γ → ζ) :
    Agrees (fun value => f (read value)) (x >>= fun result => pure (f result)) y := by
  intro source
  show (x source >>= fun answer => (ExceptT.bindCont (fun result => pure (f result)) answer.1 :
    StateT σ (Except Fault) _) answer.2) = _
  rw [agrees source, ok_bind]
  cases (y source).1 <;> rfl

/-- A check that passes is no step of the plain run. -/
theorem check' {ζ : Type} {x : Except Fault ζ} {value : ζ} {f : ζ → Run σ γ} {y : LowDimLP.Run σ β}
    (passes : x = .ok value) (rest : Agrees read (f value) y) : Agrees read (check x >>= f) y := by
  subst passes
  exact rest

theorem ite' {c : Prop} [Decidable c] {x x' : Run σ γ} {y y' : LowDimLP.Run σ β}
    (hx : c → Agrees read x y) (hy : ¬c → Agrees read x' y') :
    Agrees read (if c then x else x') (if c then y else y') := by
  by_cases h : c
  · rw [if_pos h, if_pos h]; exact hx h
  · rw [if_neg h, if_neg h]; exact hy h

theorem pick' [PickSource σ] (n : Nat) :
    Agrees Fin.val (pick (n + 1) : Run σ Nat) (LowDimLP.Run.pick n) := fun _ => rfl

end Agrees

end Run

/-! ## Insertion -/

/-- Inserts pending items in random order, at most `left` of them. -/
def insertAll [PickSource σ] (step : List ι → Option β → ι → Run σ β) (stops : β → Bool) :
    Nat → List ι → List ι → Option β → Run σ (List ι × Option β)
  | _, [], accepted, state => return (accepted, state)
  | 0, _ :: _, _, _ => Run.check (.error .depth)
  | left + 1, x :: xs, accepted, state => do
    let i ← Run.pick (xs.length + 1)
    let (h, rest) ← Run.check (swapRemove (x :: xs) i)
    let next ← step accepted state h
    if stops next then return (accepted ++ [h], some next)
    else insertAll step stops left rest (accepted ++ [h]) (some next)

theorem swapRemove_toList {n : Nat} (row : ι → κ) (pending : Vector ι (n + 1)) (i : Fin (n + 1)) :
    swapRemove (pending.toList.map row) i =
      .ok (row (Insertion.takeOut pending i).1, (Insertion.takeOut pending i).2.toList.map row) := by
  have length : (pending.toList.map row).length = n + 1 := by simp
  have taken : entry (pending.toList.map row) i = .ok (row pending[i]) := by
    rw [entry_eq_ok (length.symm ▸ i.isLt)]
    simp
  have last : entry (pending.toList.map row) n = .ok (row pending[n]) := by
    rw [entry_eq_ok (length.symm ▸ n.lt_succ_self)]
    simp
  rw [swapRemove, taken, ok_bind, length, Nat.add_sub_cancel, last, ok_bind, pure_eq_ok,
    Insertion.toList_takeOut pending i n.lt_succ_self, List.map_dropLast, List.map_set]
  rfl

example : swapRemove [10, 20, 30] 0 = .ok (10, [30, 20]) := by decide

variable [PickSource σ] {row : ι → κ} {read : β → γ} {step : List ι → Option β → ι → LowDimLP.Run σ β}
  {stops : β → Bool} {step' : List κ → Option γ → κ → Run σ γ} {stops' : γ → Bool}

/-- A step is taken from no state or from one that did not stop the loop. -/
theorem insertAll_agrees
    (steps : ∀ accepted state x, (∀ last ∈ state, stops last = false) →
      (step' (accepted.map row) (state.map read) (row x)).Agrees read (step accepted state x))
    (same : ∀ state, stops' (read state) = stops state)
    {n : Nat} (pending : Vector ι n) (accepted : List ι) (state : Option β)
    (going : ∀ last ∈ state, stops last = false) :
    (insertAll step' stops' n (pending.toList.map row) (accepted.map row) (state.map read)).Agrees
      (Prod.map (List.map row) (Option.map read))
      (LowDimLP.insertAll step stops pending accepted state) := by
  induction n generalizing accepted state with
  | zero =>
    have nothing : pending.toList = [] := by simp
    rw [nothing]
    exact Run.Agrees.pure' rfl
  | succ n ih =>
    -- The checked loop goes by the head of the pending rows; there is one, as there is an item.
    obtain ⟨x, xs, shape⟩ : ∃ x xs, pending.toList.map row = x :: xs :=
      List.exists_cons_of_length_eq_add_one (n := n) (by simp)
    have length : xs.length = n := by
      have := congrArg List.length shape
      simpa using this.symm
    subst length
    rw [shape]
    refine Run.Agrees.bind' (Run.Agrees.pick' _) fun i => ?_
    rw [← shape]
    refine Run.Agrees.check' (swapRemove_toList row pending i) ?_
    refine Run.Agrees.bind' (steps accepted state _ going) fun next => ?_
    have longer (h : ι) : accepted.map row ++ [row h] = (accepted ++ [h]).map row := by simp
    rw [same, longer]
    refine Run.Agrees.ite' (fun _ => ?_) fun more => ?_
    · exact Run.Agrees.pure' rfl
    -- The loop goes on only from a state that did not stop it.
    · exact ih _ _ (some next) (by simpa using more)

end LowDimLP.Checked
