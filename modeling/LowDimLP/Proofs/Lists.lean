import Mathlib.Data.List.Forall2
/-!
# Loops over lists

A loop whose steps do not fail is the plain map or fold of what the steps give (`mapM_map_eq_pure`,
`foldlM_map_eq_pure`), in every lawful monad. Of a map that can fail, the results stand in the order of the
items (`mapM_eq_some_iff`), or it fails at the first item that fails (`mapM_cases`). A search from the front ends at
the first item with a property (`FirstAt`). Among items with distinct keys each is the only one with its key
(`filter_key_eq_singleton`).
-/

namespace LowDimLP

/-! ## Steps that do not fail -/

section Monadic

variable {m : Type → Type} [Monad m] [LawfulMonad m] {ι κ β γ : Type}

theorem mapM_map_eq_pure {f : κ → m β} (item : ι → κ) {g : ι → β} {items : List ι}
    (each : ∀ x ∈ items, f (item x) = pure (g x)) : (items.map item).mapM f = pure (items.map g) := by
  induction items with
  | nil => rfl
  | cons x items ih =>
    rw [List.map_cons, List.mapM_cons, each x List.mem_cons_self, pure_bind,
      ih fun y hy => each y (List.mem_cons_of_mem _ hy), pure_bind, List.map_cons]

/-- A fold that can fail runs along a fold that cannot, when every step does. -/
theorem foldlM_map_eq_pure (read : γ → β) (item : ι → κ) {step : β → κ → m β} {plain : γ → ι → γ}
    (items : List ι) (each : ∀ c, ∀ x ∈ items, step (read c) (item x) = pure (read (plain c x))) (c : γ) :
    (items.map item).foldlM step (read c) = pure (read (items.foldl plain c)) := by
  induction items generalizing c with
  | nil => rfl
  | cons x items ih =>
    rw [List.map_cons, List.foldlM_cons, each c x List.mem_cons_self, pure_bind,
      ih fun c y hy => each c y (List.mem_cons_of_mem _ hy), List.foldl_cons]

end Monadic

/-! ## Steps that can fail -/

section Optional

variable {ι κ : Type} {xs : List ι} {ys : List κ}

theorem mapM_eq_some_iff {f : ι → Option κ} :
    xs.mapM f = some ys ↔ List.Forall₂ (fun x y => f x = some y) xs ys := by
  induction xs generalizing ys with
  | nil => simp
  | cons x xs ih =>
    simp [List.mapM_cons, Option.bind_eq_some_iff, List.forall₂_cons_left_iff, ih, @eq_comm _ ys]

/-- Every result is that of an item. -/
theorem exists_of_mem_mapM {f : ι → Option κ} (mapped : xs.mapM f = some ys) {y : κ} (member : y ∈ ys) :
    ∃ x ∈ xs, f x = some y := by
  have related := mapM_eq_some_iff.mp mapped
  induction related with
  | nil => cases member
  | @cons x z xs ys first rest ih =>
    rcases List.mem_cons.mp member with rfl | later
    · exact ⟨x, List.mem_cons_self, first⟩
    · obtain ⟨x, other, found⟩ := ih (mapM_eq_some_iff.mpr rest) later
      exact ⟨x, List.mem_cons_of_mem _ other, found⟩

theorem exists_mapM_eq_some {f : ι → Option κ} (all : ∀ x ∈ xs, ∃ y, f x = some y) :
    ∃ ys, xs.mapM f = some ys := by
  induction xs with
  | nil => exact ⟨[], rfl⟩
  | cons x xs ih =>
    obtain ⟨y, first⟩ := all x List.mem_cons_self
    obtain ⟨ys, others⟩ := ih fun x hx => all x (List.mem_cons_of_mem _ hx)
    exact ⟨y :: ys, by simp [List.mapM_cons, first, others]⟩

theorem forall_mem_iff_of_forall₂ {R : ι → κ → Prop} {P : ι → Prop} {Q : κ → Prop}
    (related : List.Forall₂ R xs ys) (same : ∀ x y, R x y → (P x ↔ Q y)) :
    (∀ x ∈ xs, P x) ↔ ∀ y ∈ ys, Q y := by
  induction related with
  | nil => simp
  | cons first _ ih => rw [List.forall_mem_cons, List.forall_mem_cons, same _ _ first, ih]

end Optional

/-! ## The first item with a property -/

/-- The item at a position is the first one with the property. -/
structure FirstAt {ι : Type} (P : ι → Prop) (xs : List ι) (position : Nat) (x : ι) : Prop where
  here : xs[position]? = some x
  holds : P x
  before : ∀ earlier < position, ∀ y, xs[earlier]? = some y → ¬P y

namespace FirstAt

variable {ι κ : Type} {P : ι → Prop} {xs : List ι} {position : Nat} {x : ι}

theorem head (holds : P x) (xs : List ι) : FirstAt P (x :: xs) 0 x :=
  ⟨rfl, holds, fun _ earlier => absurd earlier (Nat.not_lt_zero _)⟩

theorem tail {first : ι} (passed : ¬P first) (rest : FirstAt P xs position x) :
    FirstAt P (first :: xs) (position + 1) x := by
  refine ⟨rest.here, rest.holds, fun earlier less y there => ?_⟩
  cases earlier with
  | zero =>
    cases there
    exact passed
  | succ earlier => exact rest.before earlier (Nat.lt_of_succ_lt_succ less) y there

/-- Properties that correspond are first met at the same position. -/
theorem of_forall₂ {R : ι → κ → Prop} {Q : κ → Prop} {ys : List κ} {y : κ} (met : FirstAt Q ys position y)
    (related : List.Forall₂ R xs ys) (same : ∀ x y, R x y → (P x ↔ Q y)) :
    ∃ x, FirstAt P xs position x ∧ R x y := by
  induction related generalizing position with
  | nil => cases met.here
  | @cons x first xs others relates rest ih =>
    cases position with
    | zero =>
      cases met.here
      exact ⟨x, head ((same _ _ relates).mpr met.holds) xs, relates⟩
    | succ position =>
      have passed : ¬P x := fun holds => met.before 0 (Nat.succ_pos _) first rfl ((same _ _ relates).mp holds)
      have later : FirstAt Q others position y :=
        ⟨met.here, met.holds, fun earlier less => met.before (earlier + 1) (Nat.succ_lt_succ less)⟩
      obtain ⟨z, found, relates⟩ := ih later
      exact ⟨z, found.tail passed, relates⟩

end FirstAt

/-- A loop that can fail gives a result for each item, or it fails as the first item does on which it fails. -/
theorem mapM_cases {ε ι κ : Type} (f : ι → Except ε κ) (xs : List ι) :
    (∃ ys, xs.mapM f = .ok ys ∧ List.Forall₂ (fun x y => f x = .ok y) xs ys) ∨
      ∃ position x e, FirstAt (fun x => ∃ e, f x = .error e) xs position x ∧ f x = .error e ∧
        xs.mapM f = .error e := by
  induction xs with
  | nil => exact .inl ⟨[], rfl, .nil⟩
  | cons x xs ih =>
    rw [List.mapM_cons]
    cases first : f x with
    | error e => exact .inr ⟨0, x, e, .head ⟨e, first⟩ xs, first, rfl⟩
    | ok y =>
      rcases ih with ⟨ys, others, each⟩ | ⟨position, z, e, found, failed, others⟩
      · exact .inl ⟨y :: ys, by rw [others]; rfl, .cons first each⟩
      · refine .inr ⟨position + 1, z, e, found.tail fun ⟨e, failed⟩ => ?_, failed, by rw [others]; rfl⟩
        cases first.symm.trans failed

/-! ## Items with distinct keys -/

/-- The only item with its key. -/
theorem filter_key_eq_singleton {ι κ : Type} [BEq κ] [LawfulBEq κ] {key : ι → κ} {xs : List ι} {x : ι}
    (distinct : (xs.map key).Nodup) (member : x ∈ xs) : xs.filter (fun y => key y == key x) = [x] := by
  induction xs with
  | nil => cases member
  | cons first others ih =>
    rw [List.map_cons, List.nodup_cons] at distinct
    rcases List.mem_cons.mp member with rfl | there
    · have absent : others.filter (fun y => key y == key x) = [] := by
        refine List.filter_eq_nil_iff.mpr fun other hother same => distinct.1 ?_
        exact List.mem_map.mpr ⟨other, hother, by simpa using same⟩
      rw [List.filter_cons_of_pos (by simp), absent]
    · have different : ¬(key first == key x) = true := fun same =>
        distinct.1 (List.mem_map.mpr ⟨x, there, (beq_iff_eq.mp same).symm⟩)
      rw [List.filter_cons, if_neg different]
      exact ih distinct.2 there

/-! ## Positions -/

/-- A list of known length, read position by position. -/
theorem ofFn_get_cast {ι : Type} {n : Nat} {xs : List ι} (length : xs.length = n) :
    (List.ofFn fun i : Fin n => xs.get (i.cast length.symm)) = xs := by
  subst length
  exact List.ofFn_getElem

end LowDimLP
