import Mathlib.Data.List.Sort
import Mathlib.Data.Nat.Choose.Basic
import LowDimLP.Solver.Vertices
/-!
# Choices

A choice of `k` items is a sublist of that length (`mem_choices_iff`), so of the numbers below `n` it is a strictly
increasing tuple (`mem_choices_range_iff`). There are binomially many (`length_choices`), in lexicographic order
(`pairwise_choices`). Each choice of the numbers below `n` determines the one that comes after it: the last number
that can still grow does, and those behind it follow at once (`following?`). The choices of a range are such a
succession from the first to the last (`succession_choices`), which is how a loop can list them one by one.
-/

namespace LowDimLP

section Items

variable {ι κ : Type} {k : Nat}

/-- Choices are made by position, so renaming the items renames them in the choices. -/
theorem choices_map (f : ι → κ) (k : Nat) (xs : List ι) :
    choices k (xs.map f) = (choices k xs).map (List.map f) := by
  fun_induction choices k xs with
  | case1 => simp [choices]
  | case2 xs => simp [choices]
  | case3 k => rfl
  | case4 k x xs with_first without => simp [choices, with_first, without]

theorem mem_choices_iff {xs chosen : List ι} (positive : 0 < k) :
    chosen ∈ choices k xs ↔ chosen.Sublist xs ∧ chosen.length = k := by
  fun_induction choices k xs generalizing chosen with
  | case1 => omega
  | case2 xs =>
    rw [List.mem_map]
    constructor
    · intro ⟨x, hx, same⟩
      subst same
      exact ⟨List.singleton_sublist.mpr hx, rfl⟩
    · intro ⟨sub, single⟩
      obtain ⟨x, rfl⟩ := List.length_eq_one_iff.mp single
      exact ⟨x, List.singleton_sublist.mp sub, rfl⟩
  | case3 k =>
    refine iff_of_false (by simp) ?_
    intro ⟨sub, long⟩
    rw [List.sublist_nil.mp sub] at long
    simp at long
  | case4 k x xs with_first without =>
    rw [List.mem_append, List.mem_map, without (by omega), List.sublist_cons_iff, or_and_right,
      or_comm]
    refine or_congr_right ?_
    constructor
    · intro ⟨rest, hrest, same⟩
      subst same
      obtain ⟨sub, long⟩ := (with_first (by omega)).mp hrest
      exact ⟨⟨rest, rfl, sub⟩, by rw [List.length_cons, long]⟩
    · intro ⟨⟨rest, same, sub⟩, long⟩
      subst same
      exact ⟨rest, (with_first (by omega)).mpr ⟨sub, by simpa using long⟩, rfl⟩

example : choices 2 [1, 2, 3] = [[1, 2], [1, 3], [2, 3]] := by decide

theorem choices_zero (xs : List ι) : choices 0 xs = [] := by
  rw [choices]

/-- Pascal's rule counts the choices with the first item and those without it. -/
theorem length_choices (k : Nat) (xs : List ι) : (choices (k + 1) xs).length = xs.length.choose (k + 1) := by
  induction xs generalizing k with
  | nil => cases k <;> simp [choices]
  | cons x xs ih =>
    cases k with
    | zero => simp [choices]
    | succ k =>
      rw [choices, List.length_append, List.length_map, ih k, ih (k + 1), List.length_cons,
        Nat.choose_succ_succ]

theorem choices_eq_nil {xs : List ι} (few : xs.length < k) : choices k xs = [] := by
  apply List.eq_nil_of_length_eq_zero
  obtain ⟨k, rfl⟩ : ∃ j, k = j + 1 := ⟨k - 1, by omega⟩
  rw [length_choices, Nat.choose_eq_zero_of_lt few]

end Items

/-! ## Lexicographic order -/

/-- The choices of increasing numbers stand in lexicographic order. -/
theorem pairwise_choices (k : Nat) {xs : List Nat} (increasing : xs.Pairwise (· < ·)) :
    (choices k xs).Pairwise (· < ·) := by
  fun_induction choices k xs with
  | case1 => exact List.Pairwise.nil
  | case2 xs => exact List.pairwise_map.mpr (increasing.imp fun less => List.Lex.rel less)
  | case3 k => exact List.Pairwise.nil
  | case4 k x xs with_first without =>
    obtain ⟨least, rest⟩ := List.pairwise_cons.mp increasing
    refine List.pairwise_append.mpr ⟨?_, without rest, ?_⟩
    · exact List.pairwise_map.mpr ((with_first rest).imp fun less => List.Lex.cons less)
    · -- A choice with the first item precedes every choice that begins later.
      intro earlier with_x later without_x
      obtain ⟨tail, -, rfl⟩ := List.mem_map.mp with_x
      obtain ⟨sub, long⟩ := (mem_choices_iff (by omega)).mp without_x
      cases later with
      | nil => simp at long
      | cons y later => exact List.Lex.rel (least y (sub.subset List.mem_cons_self))

/-- The choices of the numbers below `n` are the increasing tuples of these numbers. -/
theorem mem_choices_range_iff {n k : Nat} {chosen : List Nat} :
    chosen ∈ choices (k + 1) (List.range n) ↔
      chosen.length = k + 1 ∧ chosen.Pairwise (· < ·) ∧ ∀ i ∈ chosen, i < n := by
  rw [mem_choices_iff k.succ_pos, and_comm]
  refine and_congr_right fun _ => ?_
  constructor
  · intro sub
    exact ⟨List.pairwise_lt_range.sublist sub, fun i hi => List.mem_range.mp (sub.subset hi)⟩
  · intro ⟨increasing, below⟩
    have subset : chosen ⊆ List.range n := fun i hi => List.mem_range.mpr (below i hi)
    have subperm := List.subperm_of_subset increasing.nodup subset
    exact List.sublist_of_subperm_of_pairwise subperm increasing List.pairwise_lt_range

/-! ## One choice after the other -/

/-- The choice after `t` among the numbers below `n`: the last number that leaves room for those behind it
grows by one, and those follow it at once. The last choice has none after it. -/
def following? (n : Nat) : List Nat → Option (List Nat)
  | [] => none
  | i :: t =>
    match following? n t with
    | some next => some (i :: next)
    | none => if i + t.length + 1 < n then some (List.range' (i + 1) (t.length + 1)) else none

theorem length_of_following? {n : Nat} {t next : List Nat} (follows : following? n t = some next) :
    next.length = t.length := by
  induction t generalizing next with
  | nil => cases follows
  | cons i t ih =>
    rw [following?] at follows
    split at follows
    · next tail found =>
      cases follows
      rw [List.length_cons, List.length_cons, ih found]
    · split at follows
      · cases follows
        simp
      · cases follows

/-- What stands in front of the number that grows stays. -/
theorem following?_append {n x : Nat} {back : List Nat} (front : List Nat)
    (stuck : following? n back = none) (room : x + back.length + 1 < n) :
    following? n (front ++ x :: back) = some (front ++ List.range' (x + 1) (back.length + 1)) := by
  induction front with
  | nil => simp only [List.nil_append, following?, stuck, if_pos room]
  | cons i front ih => rw [List.cons_append, following?, ih, List.cons_append]

/-- From `t` on, each of the listed choices follows the one before it, up to the last. -/
inductive Succession (n : Nat) : List Nat → List (List Nat) → Prop where
  | last {t : List Nat} (final : following? n t = none) : Succession n t [t]
  | step {t next : List Nat} {later : List (List Nat)} (follows : following? n t = some next)
      (rest : Succession n next later) : Succession n t (t :: later)

namespace Succession

variable {n i : Nat} {t : List Nat} {ts later : List (List Nat)}

/-- Behind one number the choices go through a succession, and then the number itself grows. -/
theorem cons_append (behind : Succession n t ts) (room : i + t.length + 1 < n)
    (rest : Succession n (List.range' (i + 1) (t.length + 1)) later) :
    Succession n (i :: t) (ts.map (i :: ·) ++ later) := by
  induction behind with
  | last final => exact .step (by simp only [following?, final, if_pos room]) rest
  | step follows _ ih =>
    rw [← length_of_following? follows] at room rest
    exact .step (by simp only [following?, follows]) (ih room rest)

/-- A number without room to grow stays to the end. -/
theorem cons (behind : Succession n t ts) (full : ¬i + t.length + 1 < n) :
    Succession n (i :: t) (ts.map (i :: ·)) := by
  induction behind with
  | last final => exact .last (by simp only [following?, final, if_neg full])
  | step follows _ ih =>
    rw [← length_of_following? follows] at full
    exact .step (by simp only [following?, follows]) (ih full)

end Succession

/-- The choices of consecutive numbers are a succession, from the first of them on. The induction is on the
range, as `choices` goes. -/
theorem succession_choices {k m : Nat} (enough : k + 1 ≤ m) (a : Nat) :
    Succession (a + m) (List.range' a (k + 1)) (choices (k + 1) (List.range' a m)) := by
  induction m generalizing a k with
  | zero => omega
  | succ m ih =>
    have upper : a + (m + 1) = a + 1 + m := by omega
    have first : List.range' a (m + 1) = a :: List.range' (a + 1) m := List.range'_succ
    rw [first, upper]
    cases k with
    | zero =>
      -- Single numbers: the next one follows, if there is one.
      cases m with
      | zero => exact .last (by simp [following?])
      | succ m =>
        refine .step (by simp [following?]) (?_ : Succession _ [a + 1] _)
        exact ih (k := 0) (by omega) (a + 1)
    | succ k =>
      have behind : Succession (a + 1 + m) (List.range' (a + 1) (k + 1)) _ := ih (by omega) (a + 1)
      rw [choices, List.range'_succ]
      by_cases room : k + 2 ≤ m
      · refine behind.cons_append ?_ ?_
        · simp only [List.length_range']
          omega
        · rw [List.length_range']
          exact ih room (a + 1)
      · have few : (List.range' (a + 1) m).length < k + 2 := by
          simp only [List.length_range']
          omega
        rw [choices_eq_nil few, List.append_nil]
        refine behind.cons ?_
        simp only [List.length_range']
        omega

end LowDimLP
