import LowDimLP.Solver.Insertion
/-!
# Total correctness of runs

`Run.Ensures x P`: from every source, the computation `x` gives a value and the value has the property
`P`; it never fails. Sources are arbitrary, so what a run ensures it ensures for every stream of picks.
The rules follow the program: one for a value, one for a draw, one for a sequence, one for a choice.
-/

namespace LowDimLP.Run

variable {σ β γ : Type}

/-- From every source the computation gives a value with the property `P`. -/
def Ensures (x : Run σ β) (P : β → Prop) : Prop :=
  ∀ source, ∃ value rest, x source = (.ok value, rest) ∧ P value

/-- A computation that gives a value goes on with it. -/
theorem bind_eq_of_ok {x : Run σ β} {f : β → Run σ γ} {source rest : σ} {value : β}
    (h : x source = (.ok value, rest)) : (x >>= f) source = f value rest := by
  show (x >>= fun a => ExceptT.bindCont f a : StateM σ (Except SolverError γ)) source = _
  show (match x source with | (a, s) => (ExceptT.bindCont f a : StateM σ _) s) = _
  rw [h]
  rfl

/-- A computation that fails goes no further. -/
theorem bind_eq_of_error {x : Run σ β} {f : β → Run σ γ} {source rest : σ} {e : SolverError}
    (h : x source = (.error e, rest)) : (x >>= f) source = (.error e, rest) := by
  show (x >>= fun a => ExceptT.bindCont f a : StateM σ (Except SolverError γ)) source = _
  show (match x source with | (a, s) => (ExceptT.bindCont f a : StateM σ _) s) = _
  rw [h]
  rfl

/-- A sequence that gives a value got one from its first part. -/
theorem exists_of_bind_ok {x : Run σ β} {f : β → Run σ γ} {source rest : σ} {result : γ}
    (h : (x >>= f) source = (.ok result, rest)) :
    ∃ value middle, x source = (.ok value, middle) ∧ f value middle = (.ok result, rest) := by
  match first : x source with
  | (.ok value, middle) => exact ⟨value, middle, rfl, (bind_eq_of_ok first).symm.trans h⟩
  | (.error e, middle) =>
    rw [bind_eq_of_error first] at h
    cases h

namespace Ensures

theorem pure' {value : β} {P : β → Prop} (h : P value) : Ensures (pure value : Run σ β) P :=
  fun source => ⟨value, source, rfl, h⟩

theorem bind' {x : Run σ β} {f : β → Run σ γ} {P : β → Prop} {Q : γ → Prop}
    (hx : Ensures x P) (hf : ∀ value, P value → Ensures (f value) Q) : Ensures (x >>= f) Q := by
  intro source
  obtain ⟨value, middle, first, hvalue⟩ := hx source
  obtain ⟨result, rest, second, hresult⟩ := hf value hvalue middle
  exact ⟨result, rest, (bind_eq_of_ok first).trans second, hresult⟩

theorem mono {x : Run σ β} {P Q : β → Prop} (hx : Ensures x P) (h : ∀ value, P value → Q value) :
    Ensures x Q := by
  intro source
  obtain ⟨value, rest, run, hvalue⟩ := hx source
  exact ⟨value, rest, run, h value hvalue⟩

theorem ite' {c : Prop} [Decidable c] {x y : Run σ β} {P : β → Prop}
    (hx : c → Ensures x P) (hy : ¬c → Ensures y P) : Ensures (if c then x else y) P := by
  by_cases h : c
  · rw [if_pos h]; exact hx h
  · rw [if_neg h]; exact hy h

end Ensures

variable [PickSource σ]

theorem pick_eq (n : Nat) (source : σ) :
    (pick n : Run σ (Fin (n + 1))) source =
      (.ok (PickSource.pick source n).1, (PickSource.pick source n).2) := rfl

end LowDimLP.Run
