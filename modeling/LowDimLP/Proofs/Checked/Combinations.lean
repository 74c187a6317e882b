import LowDimLP.Proofs.Checked.Row
import LowDimLP.Proofs.Choices
/-!
# Positions one choice at a time

The program does not list the choices of boundaries beforehand. It holds the positions of the next choice, and each
time it hands them out it searches from the right for one that can still grow, advances it and lets the later ones
follow at once; every difference is checked as every index is. The bound `size - count + i` of the search leaves
just enough room behind position `i`, so the step goes to the choice that follows (`next_eq`), and a whole run
yields the list that the scan goes through, each choice once, in lexicographic order
(`Combinations.yields_choices`).
-/

namespace LowDimLP.Checked

/-- A difference, which must not be negative. -/
def minus (a b : Nat) : Except Fault Nat := if b ≤ a then .ok (a - b) else .error (.outOfRange b a)

theorem minus_eq_ok {a b : Nat} (h : b ≤ a) : minus a b = .ok (a - b) := if_pos h

/-- An iteration over the choices of positions below `size`. -/
structure Combinations where
  size : Nat
  positions : List Nat
  done : Bool

namespace Combinations

/-- The iteration over the choices of `count` positions, of which there are none if `count` is zero or too
large. -/
def start (size count : Nat) : Combinations := ⟨size, List.range count, decide (count = 0 ∨ size < count)⟩

variable (c : Combinations)

/-- Can the position with this index still grow? -/
def canGrow (i : Nat) : Except Fault Bool := do
  let position ← entry c.positions i
  return decide (position < (← minus c.size c.positions.length) + i)

/-- The last index before `bound` whose position can still grow. -/
def lastGrowing : Nat → Except Fault (Option Nat)
  | 0 => return none
  | i + 1 => do if ← c.canGrow i then return some i else lastGrowing i

/-- Lets every position from index `i` on follow the one before it at once. -/
def refill (positions : List Nat) (i : Nat) : Except Fault (List Nat) :=
  (List.range' i (positions.length - i)).foldlM
    (fun positions j => do setAt positions j ((← entry positions (← minus j 1)) + 1)) positions

/-- Hands out the positions, if any are left, and moves on to the next ones. -/
def next : Except Fault (Option (List Nat) × Combinations) := do
  if c.done then return (none, c)
  else
    match ← c.lastGrowing c.positions.length with
    | none => return (some c.positions, { c with done := true })
    | some i =>
      let grown ← setAt c.positions i ((← entry c.positions i) + 1)
      return (some c.positions, { c with positions := ← refill grown (i + 1) })

/-- The iteration hands out these choices and then ends. No check fails on the way. -/
inductive Yields : Combinations → List (List Nat) → Prop where
  | none {c c' : Combinations} (ends : c.next = .ok (.none, c')) : Yields c []
  | some {c c' : Combinations} {chosen : List Nat} {later : List (List Nat)}
      (gives : c.next = .ok (.some chosen, c')) (rest : Yields c' later) : Yields c (chosen :: later)

variable {c}

/-- An iteration hands out one list only. -/
theorem Yields.unique {first second : List (List Nat)} (h : c.Yields first) (h' : c.Yields second) :
    first = second := by
  induction h generalizing second with
  | none ends =>
    cases h' with
    | none => rfl
    | some gives =>
      rw [ends] at gives
      cases gives
  | some gives _ ih =>
    cases h' with
    | none ends =>
      rw [gives] at ends
      cases ends
    | some gives' rest' =>
      rw [gives] at gives'
      cases gives'
      rw [ih rest']

theorem yields_of_done (done : c.done = true) : c.Yields [] := .none (by rw [next, if_pos done]; rfl)

/-! ## One step -/

/-- With the number in front of them given, the numbers behind are the ones that follow it at once. -/
theorem refill_eq (front : List Nat) (x : Nat) (back : List Nat) :
    refill (front ++ x :: back) (front.length + 1) = .ok (front ++ List.range' x (back.length + 1)) := by
  have count : (front ++ x :: back).length - (front.length + 1) = back.length := by
    rw [List.length_append, List.length_cons]
    omega
  rw [refill, count]
  clear count
  induction back generalizing front x with
  | nil => rfl
  | cons y back ih =>
    have before : entry (front ++ x :: y :: back) front.length = .ok x := by
      rw [entry_eq_ok (by simp)]
      simp
    have written : setAt (front ++ x :: y :: back) (front.length + 1) (x + 1) =
        .ok (front ++ [x] ++ (x + 1) :: back) := by
      rw [setAt, if_pos (by simp)]
      simp
    have rest := ih (front ++ [x]) (x + 1)
    rw [List.length_append, List.length_singleton] at rest
    rw [List.length_cons, List.range'_succ, List.foldlM_cons, minus_eq_ok (by omega), ok_bind,
      Nat.add_sub_cancel, before, ok_bind, written, ok_bind, rest]
    simp [List.range'_succ]

section Search

variable (fits : c.positions.length ≤ c.size)

include fits

theorem canGrow_eq {i : Nat} (inside : i < c.positions.length) :
    c.canGrow i = .ok (decide (c.positions[i] + (c.positions.length - (i + 1)) + 1 < c.size)) := by
  rw [canGrow, entry_eq_ok inside, ok_bind, minus_eq_ok fits, ok_bind, pure_eq_ok]
  congr 2
  rw [eq_iff_iff]
  omega

/-- The search goes on as long as no choice of the numbers behind has one after it, and where it stops is the
number that grows. -/
theorem lastGrowing_spec {bound : Nat} (inside : bound ≤ c.positions.length)
    (stuck : following? c.size (c.positions.drop bound) = none) :
    (∃ front x back, c.positions = front ++ x :: back ∧ c.lastGrowing bound = .ok (some front.length) ∧
        following? c.size back = none ∧ x + back.length + 1 < c.size) ∨
      c.lastGrowing bound = .ok none ∧ following? c.size c.positions = none := by
  induction bound with
  | zero => exact .inr ⟨rfl, stuck⟩
  | succ i ih =>
    have here : c.positions.drop i = c.positions[i] :: c.positions.drop (i + 1) :=
      List.drop_eq_getElem_cons inside
    have behind : (c.positions.drop (i + 1)).length = c.positions.length - (i + 1) := List.length_drop
    rw [lastGrowing, canGrow_eq fits inside, ok_bind]
    by_cases room : c.positions[i] + (c.positions.length - (i + 1)) + 1 < c.size
    · rw [if_pos (decide_eq_true room)]
      refine .inl ⟨c.positions.take i, c.positions[i], c.positions.drop (i + 1), ?_, ?_, stuck, ?_⟩
      · rw [← here, List.take_append_drop]
      · rw [List.length_take_of_le (by omega)]
        rfl
      · rwa [behind]
    · rw [if_neg (by simpa using room)]
      refine ih (by omega) ?_
      simp only [here, following?, stuck, behind, if_neg room]

/-- A step hands the positions out and goes on to the choice that follows, or ends after the last one. -/
theorem next_eq (going : c.done = false) :
    c.next = .ok (some c.positions,
      match following? c.size c.positions with
      | some after => { c with positions := after }
      | none => { c with done := true }) := by
  have stuck : following? c.size (c.positions.drop c.positions.length) = none := by
    rw [List.drop_length]
    rfl
  rw [next, going, if_neg (by simp)]
  rcases lastGrowing_spec fits le_rfl stuck with ⟨front, x, back, split, found, last, room⟩ | ⟨found, final⟩
  · have grows : entry c.positions front.length = .ok x := by
      rw [entry_eq_ok (by simp [split])]
      simp [split]
    have grown : setAt c.positions front.length (x + 1) = .ok (front ++ (x + 1) :: back) := by
      rw [setAt, if_pos (by simp [split])]
      simp [split]
    have follows := following?_append front last room
    rw [← split] at follows
    simp only [found, grows, grown, follows, refill_eq, ok_bind, pure_eq_ok]
  · simp only [found, final, ok_bind, pure_eq_ok]

end Search

/-! ## Whole iterations -/

/-- An iteration goes through the succession that begins at its positions. -/
theorem yields_of_succession {size : Nat} {positions : List Nat} {ts : List (List Nat)}
    (succession : Succession size positions ts) (fits : positions.length ≤ size) :
    Yields ⟨size, positions, false⟩ ts := by
  induction succession with
  | last final =>
    refine .some (next_eq fits rfl) ?_
    simp only [final]
    exact yields_of_done rfl
  | step follows _ ih =>
    refine .some (next_eq fits rfl) ?_
    simp only [follows]
    exact ih ((length_of_following? follows).le.trans fits)

/-- The iteration yields the choices that the scan for the best vertex goes through. -/
theorem yields_choices (size count : Nat) : (start size count).Yields (choices count (List.range size)) := by
  by_cases none : count = 0 ∨ size < count
  · have nothing : choices count (List.range size) = [] := by
      rcases none with rfl | few
      · exact choices_zero _
      · exact choices_eq_nil (by rwa [List.length_range])
    rw [nothing]
    exact yields_of_done (decide_eq_true none)
  · obtain ⟨k, rfl⟩ : ∃ k, count = k + 1 := ⟨count - 1, by omega⟩
    have from_zero := succession_choices (k := k) (m := size) (by omega) 0
    rw [Nat.zero_add, ← List.range_eq_range', ← List.range_eq_range'] at from_zero
    rw [start, decide_eq_false none]
    exact yields_of_succession from_zero (by rw [List.length_range]; omega)

/-- **The positions are tried choice by choice.** The iteration ends, without a failed check, and what it has
handed out are the strictly increasing tuples of positions: each once, in lexicographic order, binomially many,
so none at all when there are too few positions, and none of no position. -/
theorem iterates_all_choices (size count : Nat) :
    (∀ listed, (start size 0).Yields listed ↔ listed = []) ∧
    (∀ listed, (start size (count + 1)).Yields listed ↔ listed = choices (count + 1) (List.range size)) ∧
    (∀ chosen, chosen ∈ choices (count + 1) (List.range size) ↔
      chosen.length = count + 1 ∧ chosen.Pairwise (· < ·) ∧ ∀ i ∈ chosen, i < size) ∧
    (choices (count + 1) (List.range size)).Nodup ∧
    (choices (count + 1) (List.range size)).Pairwise (· < ·) ∧
    (choices (count + 1) (List.range size)).length = size.choose (count + 1) ∧
    (choices (count + 1) (List.range size) = [] ↔ size < count + 1) := by
  have yields : ∀ k listed, (start size k).Yields listed ↔ listed = choices k (List.range size) := by
    intro k listed
    constructor
    · intro listed_yields
      exact listed_yields.unique (yields_choices size k)
    · intro same
      rw [same]
      exact yields_choices size k
  have ordered := pairwise_choices (count + 1) (List.pairwise_lt_range (n := size))
  have counted : (choices (count + 1) (List.range size)).length = size.choose (count + 1) := by
    rw [length_choices, List.length_range]
  refine ⟨fun listed => ?_, yields (count + 1), fun chosen => mem_choices_range_iff, ordered.imp ?_, ordered,
    counted, ?_⟩
  · rw [yields, choices_zero]
  · intro earlier later less same
    rw [same] at less
    exact List.lt_irrefl later less
  · rw [← List.length_eq_zero_iff, counted, Nat.choose_eq_zero_iff]

end Combinations

example : (do
    let (first, c) ← (Combinations.start 3 2).next
    let (second, c) ← c.next
    let (third, c) ← c.next
    return [first, second, third, (← c.next).1]) =
      (.ok [some [0, 1], some [0, 2], some [1, 2], none] : Except Fault _) := by decide

end LowDimLP.Checked
