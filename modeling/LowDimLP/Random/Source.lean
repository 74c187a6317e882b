import LowDimLP.Scalar
/-!
# Sources of randomness

A source yields 64-bit words one after the other. All randomness of the library is drawn from one
source that the caller owns: indices, by a reduction that rejects the words that would favour some
index, and scalars, from the leading bits of a word. Replaying the words replays every choice.

A solver asks for indices only, so it is written over `PickSource`; every word source is one.
-/

namespace LowDimLP

universe u

/-- A stream of 64-bit words. -/
class WordSource (σ : Type) where
  /-- The next word, and the source after it. -/
  next : σ → UInt64 × σ

/-- A stream of indices, each asked for with its bound. -/
class PickSource (σ : Type) where
  /-- An index below `n + 1`, and the source after it. -/
  pick : σ → (n : Nat) → Fin (n + 1) × σ

/-! ## Indices from words -/

namespace WordSource

variable {σ : Type} [WordSource σ]

/-- The largest low half that is accepted: as many full turns of `n` values as fit into 64 bits. -/
def acceptBelow (n : Nat) : Nat := n <<< (63 - Nat.log2 n)

/-- The index a word stands for: the high half of its product with the number of indices. -/
def scale (w : UInt64) (n : Nat) : Fin (n + 1) :=
  ⟨w.toNat * (n + 1) / UInt64.size, by
    have h := w.toNat_lt
    have : w.toNat * (n + 1) < UInt64.size * (n + 1) := Nat.mul_lt_mul_of_pos_right h (Nat.succ_pos n)
    exact Nat.div_lt_of_lt_mul this⟩

/-- A word is taken when the low half of its product is small enough; then all indices are equally
likely. -/
def accepts (w : UInt64) (n : Nat) : Bool :=
  decide (w.toNat * (n + 1) % UInt64.size < acceptBelow (n + 1))

/-- Draws words until one is taken, at most `tries` of them. -/
def pickWithin (n : Nat) : Nat → σ → Fin (n + 1) × σ
  | 0, s => (0, s)
  | tries + 1, s =>
    let (w, s) := next s
    if accepts w n then (scale w n, s) else pickWithin n tries s

/-- More words than any run draws; at least every second word is taken. -/
def patience : Nat := 1 <<< 62

instance : PickSource σ where
  pick s n := pickWithin n patience s

/-! ## Scalars from words -/

variable {α : Type u} [Scalar α]

/-- A scalar of `[0, 1)`: the leading 53 bits of a word. -/
def fraction (s : σ) : α × σ :=
  let (w, s) := next s
  (Scalar.ofNat (w.toNat >>> 11) / Scalar.ofNat (1 <<< 53), s)

/-- A scalar of `[-1, 1)`: the leading 52 bits of a word, spread over twice the unit. -/
def symmetric (s : σ) : α × σ :=
  let (w, s) := next s
  (Scalar.ofNat (w.toNat >>> 12) / Scalar.ofNat (1 <<< 52) * 2.0 - 1, s)

end WordSource

/-! ## Given words, and counting -/

/-- A source of the listed words, followed by zeros. -/
structure ListedWords where
  words : List UInt64

instance : WordSource ListedWords where
  next
    | ⟨[]⟩ => (0, ⟨[]⟩)
    | ⟨w :: ws⟩ => (w, ⟨ws⟩)

/-- A source with the number of words drawn from it. -/
structure Counted (σ : Type) where
  source : σ
  drawn : Nat

instance {σ : Type} [WordSource σ] : WordSource (Counted σ) where
  next s :=
    let (w, source) := WordSource.next s.source
    (w, ⟨source, s.drawn + 1⟩)

/-- The first `n` words of a source. -/
def WordSource.take {σ : Type} [WordSource σ] : Nat → σ → List UInt64
  | 0, _ => []
  | n + 1, s => let (w, s) := next s; w :: take n s

end LowDimLP
