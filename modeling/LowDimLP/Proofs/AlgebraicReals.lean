import Mathlib.Algebra.AlgebraicCard
import Mathlib.Algebra.Ring.Subring.Order
import Mathlib.Data.Rat.Denumerable
import Mathlib.FieldTheory.AlgebraicClosure
import LowDimLP.Proofs.ExactArithmetic
import LowDimLP.Proofs.Json.Records
/-!
# Exact numbers that can be written down

There are too many real numbers for all of them to have a text. The algebraic ones are closed under the square
root as well, so arithmetic on them is exact, and they are countable, so each of them can be written: the natural
numbers and the small powers of ten as usual, every other number as the digits of a code. A number is read as
the one that is written so.
-/

namespace LowDimLP

open NumberText (digitBytes)

/-- The real numbers that are roots of rational polynomials. -/
def AlgebraicReal : Type := algebraicClosure ℚ ℝ

namespace AlgebraicReal

theorem sqrt_mem (x : algebraicClosure ℚ ℝ) : Real.sqrt x ∈ algebraicClosure ℚ ℝ := by
  rw [mem_algebraicClosure_iff]
  by_cases nonneg : (0 : ℝ) ≤ x
  · refine IsAlgebraic.of_pow zero_lt_two ?_
    rw [Real.sq_sqrt nonneg]
    exact mem_algebraicClosure_iff.mp x.2
  · rw [Real.sqrt_eq_zero_of_nonpos (not_le.mp nonneg).le]
    exact isAlgebraic_zero

noncomputable instance : ExactScalar AlgebraicReal where
  __ := (inferInstance : Field (algebraicClosure ℚ ℝ))
  __ := (inferInstance : LinearOrder (algebraicClosure ℚ ℝ))
  __ := (inferInstance : IsStrictOrderedRing (algebraicClosure ℚ ℝ))
  ofScientific m s e := ((OfScientific.ofScientific m s e : Rat) : algebraicClosure ℚ ℝ)
  decidableLt := (inferInstance : DecidableLT (algebraicClosure ℚ ℝ))
  decidableLe := (inferInstance : DecidableLE (algebraicClosure ℚ ℝ))
  sqrt x := (⟨Real.sqrt x.1, sqrt_mem x⟩ : algebraicClosure ℚ ℝ)
  abs x := (|x| : algebraicClosure ℚ ℝ)
  isFinite _ := true
  neutral := (0 : algebraicClosure ℚ ℝ)
  bottom := (0 : algebraicClosure ℚ ℝ)
  top := (0 : algebraicClosure ℚ ℝ)
  isFinite_eq_true _ := rfl
  neutral_eq_zero := rfl
  abs_eq_abs _ := rfl
  sqrt_nonneg x := Real.sqrt_nonneg x.1
  sqrt_mul_self _ nonneg := Subtype.ext (Real.mul_self_sqrt nonneg)
  ofScientific_eq_cast _ _ _ := rfl

theorem exists_code : ∃ code : AlgebraicReal → ℕ, Function.Injective code := by
  have countable : Set.Countable (algebraicClosure ℚ ℝ : Set ℝ) :=
    (Algebraic.countable ℚ ℝ).mono fun _ h => mem_algebraicClosure_iff.mp h
  exact countable.to_subtype.exists_injective_nat

/-! ## Numerals -/

/-- The forms in which numbers are written. -/
inductive Numeral where
  | whole (n : ℕ)
  /-- One over a power of ten. -/
  | tenth (exponent : ℕ)
  | coded (code : ℕ)

/-- The text of a numeral. -/
def Numeral.bytes : Numeral → Bytes
  | whole n => digitBytes n ++ [byte '.', byte '0']
  | tenth exponent => byte '1' :: byte 'e' :: byte '-' :: digitBytes exponent
  | coded code => digitBytes code

theorem not_mem_digitBytes {b : UInt8} (other : isDigitByte b = false) (n : ℕ) : b ∉ digitBytes n := by
  intro member
  rw [Json.isDigitByte_digitBytes n b member] at other
  cases other

namespace Numeral

theorem point_mem_bytes_iff {x : Numeral} : byte '.' ∈ x.bytes ↔ ∃ n, x = whole n := by
  have point := not_mem_digitBytes (b := byte '.') (by decide)
  cases x <;> simp +decide [bytes, point]

theorem mark_mem_bytes_iff {x : Numeral} : byte 'e' ∈ x.bytes ↔ ∃ k, x = tenth k := by
  have mark := not_mem_digitBytes (b := byte 'e') (by decide)
  cases x <;> simp +decide [bytes, mark]

/-- A text has one form only: a point and an exponent's mark tell them apart. -/
theorem bytes_injective : Function.Injective bytes := by
  intro x y same
  have points : (∃ n, x = whole n) ↔ ∃ n, y = whole n := by
    rw [← point_mem_bytes_iff, same, point_mem_bytes_iff]
  have marks : (∃ k, x = tenth k) ↔ ∃ k, y = tenth k := by
    rw [← mark_mem_bytes_iff, same, mark_mem_bytes_iff]
  cases x with
  | whole m =>
    obtain ⟨n, rfl⟩ := points.mp ⟨m, rfl⟩
    exact congrArg whole (Json.digitBytes_injective (List.append_cancel_right same))
  | tenth m =>
    obtain ⟨n, rfl⟩ := marks.mp ⟨m, rfl⟩
    exact congrArg tenth (Json.digitBytes_injective (List.cons.inj (List.cons.inj (List.cons.inj same).2).2).2)
  | coded m =>
    cases y with
    | whole n => simp at points
    | tenth n => simp at marks
    | coded n => exact congrArg coded (Json.digitBytes_injective same)

theorem isToken_bytes (x : Numeral) : Json.IsToken x.bytes := by
  cases x with
  | whole n =>
    have ends : Json.EndsDigits [byte '.', byte '0'] := by
      intro b hb
      cases hb
      rfl
    have digits : Json.whole? (digitBytes n ++ [byte '.', byte '0']) =
        some (digitBytes n, [byte '.', byte '0']) := Json.whole?_append ends (Json.whole?_digitBytes n)
    rw [Json.IsToken, bytes, Json.number?, Json.minus_digitBytes]
    show Option.bind (Json.whole? (digitBytes n ++ [byte '.', byte '0'])) _ = _
    rw [digits]
    show some ([] ++ digitBytes n ++ [byte '.', byte '0'] ++ [], []) = _
    simp
  | tenth k =>
    have power : Json.exponent? (byte 'e' :: byte '-' :: digitBytes k) =
        some (byte 'e' :: byte '-' :: digitBytes k, []) := by
      show (Json.digits? (digitBytes k)).map _ = _
      rw [Json.digits?_digitBytes]
      rfl
    show Option.bind (Json.exponent? (byte 'e' :: byte '-' :: digitBytes k)) _ = _
    rw [power]
    rfl
  | coded n => exact Json.isToken_digitBytes n

end Numeral

open Classical in
/-- The numeral of a number. -/
noncomputable def numeral (x : AlgebraicReal) : Numeral :=
  if whole : ∃ n : ℕ, x = n then .whole whole.choose
  else if tenth : ∃ k : ℕ, x = 1 / ((10 : ℕ) : AlgebraicReal) ^ k then .tenth tenth.choose
  else .coded (exists_code.choose x)

theorem numeral_injective : Function.Injective numeral := by
  intro x y same
  have meaning : ∀ x : AlgebraicReal, (∀ n, numeral x = .whole n → x = n) ∧
      (∀ k, numeral x = .tenth k → x = 1 / ((10 : ℕ) : AlgebraicReal) ^ k) ∧
        ∀ code, numeral x = .coded code → exists_code.choose x = code := by
    intro x
    rw [numeral]
    split
    · next whole => simpa using whole.choose_spec
    split
    · next tenth => simpa using tenth.choose_spec
    · simp
  cases form : numeral x with
  | whole n => rw [(meaning x).1 n form, (meaning y).1 n (same ▸ form)]
  | tenth k => rw [(meaning x).2.1 k form, (meaning y).2.1 k (same ▸ form)]
  | coded code =>
    exact exists_code.choose_spec (((meaning x).2.2 code form).trans ((meaning y).2.2 code (same ▸ form)).symm)

/-! ## Text -/

/-- The text of a number. -/
noncomputable def text (x : AlgebraicReal) : Bytes := (numeral x).bytes

theorem text_injective : Function.Injective text := Numeral.bytes_injective.comp numeral_injective

open Classical in
/-- The number with the given text. -/
noncomputable def ofText? (bytes : Bytes) : Option AlgebraicReal :=
  if written : ∃ x, text x = bytes then some written.choose else none

theorem ofText?_text (x : AlgebraicReal) : ofText? (text x) = some x := by
  have written : ∃ y, text y = text x := ⟨x, rfl⟩
  rw [ofText?, dif_pos written, text_injective written.choose_spec]

/-- Free texts may leave the point of a natural number away. -/
noncomputable instance : NumberText AlgebraicReal where
  print := text
  ofToken? := ofText?
  ofText? bytes :=
    if bytes.isEmpty || !bytes.all isDigitByte then ofText? bytes
    else some (Literal.value (Literal.digits bytes).1 : ℕ)

instance : LawfulNumberText AlgebraicReal where
  isToken_print x _ := (numeral x).isToken_bytes
  ofToken?_print x _ := ofText?_text x

end AlgebraicReal

end LowDimLP
