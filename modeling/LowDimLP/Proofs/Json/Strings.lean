import LowDimLP.Json.Reader
import LowDimLP.Proofs.Text.Utf8
/-!
# Written strings

A byte of a text is written as itself, as a one-letter escape or as a numbered one (`escapeByte_cases`). Of
each form the reader finds the end and the meaning, so a written text is split off at its closing quote
(`stringBody?_escape`) and stands for the text it was written from (`unescape?_escape`).
-/

namespace LowDimLP.Json

/-- The three ways in which a byte is written. -/
theorem escapeByte_cases (b : UInt8) :
    (escapeByte b = [b] ∧ b ≠ byte '"' ∧ b ≠ byte '\\' ∧ ¬b < 32) ∨
      (∃ e, escapeByte b = [byte '\\', e] ∧ e ≠ byte 'u' ∧ shortEscape? e = some b) ∨
      ∃ h l, escapeByte b = [byte '\\', byte 'u', byte '0', byte '0', h, l] ∧
        hexUnit? (byte '0') (byte '0') h l = some b.toNat ∧ b < 32 := by
  rw [escapeByte]
  split
  · next quote => exact .inr (.inl ⟨_, rfl, by decide, by rw [quote]; decide⟩)
  split
  · next backslash => exact .inr (.inl ⟨_, rfl, by decide, by rw [backslash]; decide⟩)
  split
  · next h => exact .inr (.inl ⟨_, rfl, by decide, by rw [h]; decide⟩)
  split
  · next h => exact .inr (.inl ⟨_, rfl, by decide, by rw [h]; decide⟩)
  split
  · next h => exact .inr (.inl ⟨_, rfl, by decide, by rw [h]; decide⟩)
  split
  · next h => exact .inr (.inl ⟨_, rfl, by decide, by rw [h]; decide⟩)
  split
  · next h => exact .inr (.inl ⟨_, rfl, by decide, by rw [h]; decide⟩)
  split
  · next small =>
    have digits : ∀ n < 32, hexUnit? (byte '0') (byte '0') (hexDigit (n / 16)) (hexDigit (n % 16)) =
        some n := by decide
    exact .inr (.inr ⟨_, _, rfl, digits b.toNat small, small⟩)
  · next quote backslash _ _ _ _ _ large => exact .inl ⟨rfl, quote, backslash, large⟩

/-! ## Finding the end -/

theorem backslash_ne_quote : byte '\\' ≠ byte '"' := by decide

theorem stringBody?_quote (rest : Bytes) : stringBody? (byte '"' :: rest) = some ([], rest) := by
  rw [stringBody?.eq_def]
  simp

theorem stringBody?_escapeByte (b : UInt8) (rest : Bytes) :
    stringBody? (escapeByte b ++ rest) =
      (stringBody? rest).map fun split => (escapeByte b ++ split.1, split.2) := by
  rcases escapeByte_cases b with ⟨written, quote, backslash, large⟩ | ⟨e, written, letter, short⟩ |
    ⟨h, l, written, unit, -⟩
  · rw [written]
    show stringBody? (b :: rest) = _
    rw [stringBody?.eq_def]
    simp [quote, backslash, large]
  · rw [written]
    show stringBody? (byte '\\' :: e :: rest) = _
    rw [stringBody?.eq_def]
    simp [backslash_ne_quote, letter, short]
  · rw [written]
    show stringBody? (byte '\\' :: byte 'u' :: byte '0' :: byte '0' :: h :: l :: rest) = _
    rw [stringBody?.eq_def]
    simp [backslash_ne_quote, unit]

theorem stringBody?_flatMap (bs rest : Bytes) :
    stringBody? (bs.flatMap escapeByte ++ byte '"' :: rest) = some (bs.flatMap escapeByte, rest) := by
  induction bs with
  | nil => exact stringBody?_quote rest
  | cons b bs ih => rw [List.flatMap_cons, List.append_assoc, stringBody?_escapeByte, ih]; simp

/-- The reader splits a written text off at its closing quote. -/
theorem stringBody?_escape (s : String) (rest : Bytes) :
    stringBody? (escape s ++ byte '"' :: rest) = some (escape s, rest) := stringBody?_flatMap _ _

/-! ## Finding the meaning -/

theorem unescapeBytes_escapeByte (b : UInt8) (rest : Bytes) :
    unescapeBytes (escapeByte b ++ rest) = (unescapeBytes rest).map (b :: ·) := by
  rcases escapeByte_cases b with ⟨written, -, backslash, -⟩ | ⟨e, written, letter, short⟩ |
    ⟨h, l, written, unit, small⟩
  · rw [written]
    show unescapeBytes (b :: rest) = _
    rw [unescapeBytes.eq_def]
    cases others : unescapeBytes rest <;> simp [backslash, others]
  · rw [written]
    show unescapeBytes (byte '\\' :: e :: rest) = _
    rw [unescapeBytes.eq_def]
    cases others : unescapeBytes rest <;> simp [letter, short, others]
  · have point : ∀ n < 32, closesPair n = false ∧ opensPair n = false ∧
        encodePoint n = [UInt8.ofNat n] := by decide
    obtain ⟨closes, opens, bytes⟩ := point b.toNat small
    rw [written]
    show unescapeBytes (byte '\\' :: byte 'u' :: byte '0' :: byte '0' :: h :: l :: rest) = _
    rw [unescapeBytes.eq_def]
    cases others : unescapeBytes rest <;> simp [unit, closes, opens, bytes, others]

theorem unescapeBytes_flatMap (bs : Bytes) : unescapeBytes (bs.flatMap escapeByte) = some bs := by
  induction bs with
  | nil => rfl
  | cons b bs ih => rw [List.flatMap_cons, unescapeBytes_escapeByte, ih, Option.map_some]

/-- A written text stands for the text. -/
@[simp] theorem unescape?_escape (s : String) : unescape? (escape s) = some s := by
  rw [unescape?, escape, unescapeBytes_flatMap, Option.bind_some, Utf8.decode?_encode]

theorem escape_injective {s t : String} (h : escape s = escape t) : s = t := by
  have texts := congrArg unescape? h
  rw [unescape?_escape, unescape?_escape] at texts
  exact Option.some.inj texts

end LowDimLP.Json
