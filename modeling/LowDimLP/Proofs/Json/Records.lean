import LowDimLP.Proofs.Lists
import LowDimLP.Proofs.Json.Reading
/-!
# Records and numbers

What is built as a value is well written, and is taken apart into what it was built from: a record into its
fields, by name (`fields?_record`), and the number of a finite scalar into the scalar (`scalar?_ofScalar`). For
scalars this is what their written form must provide (`LawfulNumberText`, or `DistinctNumberText` where a written
scalar is only compared and not read); for natural numbers it is proved, since their digits are a token and
spell the number (`digitBytes_injective`).
-/

namespace LowDimLP

/-- The written form of a finite scalar is a number token that belongs to no other finite scalar. -/
class DistinctNumberText (α : Type) [Scalar α] [NumberText α] : Prop where
  isToken_print : ∀ x : α, Scalar.isFinite x = true → Json.IsToken (NumberText.print x)
  print_injective : ∀ x y : α, Scalar.isFinite x = true → Scalar.isFinite y = true →
    NumberText.print x = NumberText.print y → x = y

/-- The written form of a finite scalar is a number token that the scalar is read back from. -/
class LawfulNumberText (α : Type) [Scalar α] [NumberText α] : Prop where
  isToken_print : ∀ x : α, Scalar.isFinite x = true → Json.IsToken (NumberText.print x)
  ofToken?_print : ∀ x : α, Scalar.isFinite x = true → NumberText.ofToken? (NumberText.print x) = some x

instance {α : Type} [Scalar α] [NumberText α] [LawfulNumberText α] : DistinctNumberText α where
  isToken_print := LawfulNumberText.isToken_print
  print_injective x y hx hy same := by
    have read := LawfulNumberText.ofToken?_print x hx
    rw [same, LawfulNumberText.ofToken?_print y hy] at read
    exact (Option.some.inj read).symm

namespace Json

/-! ## Records -/

theorem wellWritten_record {members : List (String × Json)} (values : ∀ member ∈ members, WellWritten member.2) :
    WellWritten (record members) := by
  refine .object (fun member hm => ?_) (fun member hm => ?_)
  · obtain ⟨named, -, rfl⟩ := List.mem_map.mp hm
    exact ⟨named.1, rfl⟩
  · obtain ⟨named, given, rfl⟩ := List.mem_map.mp hm
    exact values named given

theorem wellWritten_ofString (s : String) : WellWritten (ofString s) := .string s

theorem wellWritten_ofOption {β : Type} {f : β → Json} (each : ∀ x, WellWritten (f x)) :
    (x : Option β) → WellWritten (ofOption f x)
  | none => .null
  | some x => each x

/-- The only member with its name. -/
theorem only?_eq_some {members : List (String × Json)} (distinct : (members.map Prod.fst).Nodup)
    {name : String} {value : Json} (member : (name, value) ∈ members) : only? name members = some value := by
  have one : members.filter (fun other => other.1 == name) = [(name, value)] :=
    filter_key_eq_singleton distinct member
  rw [only?, one]

/-- A record with distinct names has each of its members as the field of its name. -/
theorem fields?_record (members fields : List (String × Json)) (distinct : (members.map Prod.fst).Nodup)
    (among : ∀ field ∈ fields, field ∈ members) :
    (record members).fields? (fields.map Prod.fst) = some (fields.map Prod.snd) := by
  have named : ∀ member ∈ members, (do return (← unescape? (escape member.1), member.2)) = some member := by
    intro member _
    simp
  show Option.bind (List.mapM _ (members.map _)) _ = _
  rw [mapM_map_eq_pure (g := id) _ named, List.map_id]
  exact mapM_map_eq_pure Prod.fst fun field hfield => only?_eq_some distinct (among field hfield)

/-- The value is an object that has the fields, under distinct names and maybe among others. -/
def HasFields (value : Json) (fields : List (String × Json)) : Prop :=
  ∃ members, value = record members ∧ (members.map Prod.fst).Nodup ∧ ∀ field ∈ fields, field ∈ members

theorem HasFields.fields?_eq {value : Json} {fields : List (String × Json)} (has : value.HasFields fields) :
    value.fields? (fields.map Prod.fst) = some (fields.map Prod.snd) := by
  obtain ⟨members, rfl, distinct, among⟩ := has
  exact fields?_record members fields distinct among

theorem hasFields_record {fields : List (String × Json)} (distinct : (fields.map Prod.fst).Nodup) :
    (record fields).HasFields fields := ⟨fields, rfl, distinct, fun _ h => h⟩

/-! ## Scalars -/

section Scalars

variable {α : Type} [Scalar α] [NumberText α]

section Distinct

variable [DistinctNumberText α]

theorem wellWritten_ofScalar (x : α) : WellWritten (ofScalar x) := by
  rw [ofScalar]
  split
  · next finite => exact .number (DistinctNumberText.isToken_print x finite)
  · exact .null

theorem wellWritten_ofScalars (xs : List α) : WellWritten (ofScalars xs) := by
  refine .array fun item hitem => ?_
  obtain ⟨x, -, rfl⟩ := List.mem_map.mp hitem
  exact wellWritten_ofScalar x

theorem ofScalar_injective {x y : α} (finite : Scalar.isFinite x = true) (same : ofScalar x = ofScalar y) :
    x = y := by
  rw [ofScalar, ofScalar, if_pos finite] at same
  split at same
  · next finite' => exact DistinctNumberText.print_injective x y finite finite' (Json.number.inj same)
  · cases same

end Distinct

variable [LawfulNumberText α]

theorem scalar?_ofScalar {x : α} (finite : Scalar.isFinite x = true) : (ofScalar x).scalar? = some x := by
  rw [ofScalar, if_pos finite]
  exact LawfulNumberText.ofToken?_print x finite

end Scalars

/-! ## Natural numbers and texts -/

theorem ofString_injective {s t : String} (same : ofString s = ofString t) : s = t :=
  escape_injective (Json.string.inj same)

section Digits

open NumberText (digitBytes)

theorem toNat_toUInt8_of_isDigit {c : Char} (digit : c.isDigit = true) :
    c.toUInt8.toNat = c.toNat ∧ isDigitByte c.toUInt8 = true := by
  have bounds : 48 ≤ c.toNat ∧ c.toNat ≤ 57 := by
    simpa [Char.isDigit, UInt32.le_iff_toNat_le] using digit
  have value : c.toUInt8.toNat = c.toNat := by
    rw [Char.toUInt8, UInt32.toNat_toUInt8]
    exact Nat.mod_eq_of_lt (by show c.toNat < 256; omega)
  refine ⟨value, ?_⟩
  have low : byte '0' ≤ c.toUInt8 := UInt8.le_iff_toNat_le.mpr (by rw [value]; exact bounds.1)
  have high : c.toUInt8 ≤ byte '9' := UInt8.le_iff_toNat_le.mpr (by rw [value]; exact bounds.2)
  rw [isDigitByte, decide_eq_true low, decide_eq_true high]
  rfl

theorem isDigitByte_digitBytes (n : Nat) : ∀ b ∈ digitBytes n, isDigitByte b = true := by
  intro b hb
  obtain ⟨c, hc, rfl⟩ := List.mem_map.mp hb
  exact (toNat_toUInt8_of_isDigit (Nat.isDigit_of_mem_toDigits (by decide) (by decide) hc)).2

theorem digitBytes_injective {m n : Nat} (same : digitBytes m = digitBytes n) : m = n := by
  have chars : ∀ n, (digitBytes n).map (fun b => Char.ofNat b.toNat) = Nat.toDigits 10 n := by
    intro n
    rw [digitBytes, List.map_map]
    refine (List.map_congr_left fun c hc => ?_).trans (List.map_id _)
    have digit := Nat.isDigit_of_mem_toDigits (by decide) (by decide) hc
    simp [(toNat_toUInt8_of_isDigit digit).1]
  have digits := congrArg (List.map fun b : UInt8 => Char.ofNat b.toNat) same
  rw [chars, chars] at digits
  rw [← Nat.ofDigitChars_ten_toDigits (n := m), digits, Nat.ofDigitChars_ten_toDigits]

theorem ofNat_injective {m n : Nat} (same : ofNat m = ofNat n) : m = n :=
  digitBytes_injective (Json.number.inj same)

/-- Only zero is written with a zero in front. -/
theorem head_toDigits {n : Nat} (positive : 0 < n) : ∃ c cs, Nat.toDigits 10 n = c :: cs ∧ c ≠ '0' := by
  induction n using Nat.strongRecOn with
  | ind n ih =>
    by_cases small : n < 10
    · refine ⟨n.digitChar, [], Nat.toDigits_of_lt_base small, ?_⟩
      have digits : ∀ n < 10, 0 < n → n.digitChar ≠ '0' := by decide
      exact digits n small positive
    · obtain ⟨c, cs, digits, front⟩ := ih (n / 10) (by omega) (by omega)
      rw [Nat.toDigits_of_base_le (by decide) (by omega), digits]
      exact ⟨c, _, rfl, front⟩

theorem head_digitBytes {n : Nat} (positive : 0 < n) :
    ∃ b bs, digitBytes n = b :: bs ∧ b ≠ byte '0' := by
  obtain ⟨c, cs, digits, front⟩ := head_toDigits positive
  refine ⟨c.toUInt8, cs.map Char.toUInt8, by rw [digitBytes, digits]; rfl, fun zero => front ?_⟩
  have digit : c.isDigit = true :=
    Nat.isDigit_of_mem_toDigits (b := 10) (n := n) (by decide) (by decide) (digits ▸ List.mem_cons_self)
  have code := (toNat_toUInt8_of_isDigit digit).1
  rw [zero] at code
  exact Char.toNat_inj.mp code.symm

theorem digits?_digitBytes (n : Nat) : digits? (digitBytes n) = some (digitBytes n, []) := by
  have all := isDigitByte_digitBytes n
  have taken : (digitBytes n).takeWhile isDigitByte = digitBytes n := by
    simpa using @List.takeWhile_append_of_pos _ isDigitByte (digitBytes n) [] all
  have left : (digitBytes n).dropWhile isDigitByte = [] := by
    simpa using @List.dropWhile_append_of_pos _ isDigitByte (digitBytes n) [] all
  have nonempty : digitBytes n ≠ [] := by simp [digitBytes]
  rw [digits?, taken, left]
  exact if_neg (by simpa using nonempty)

theorem whole?_digitBytes (n : Nat) : whole? (digitBytes n) = some (digitBytes n, []) := by
  rw [whole?, digits?_digitBytes]
  by_cases positive : 0 < n
  · obtain ⟨b, bs, digits, front⟩ := head_digitBytes positive
    rw [digits]
    cases bs with
    | nil => rfl
    | cons => exact if_neg front
  · rw [Nat.eq_zero_of_not_pos positive]
    rfl

theorem minus_digitBytes (n : Nat) (rest : Bytes) :
    minus (digitBytes n ++ rest) = ([], digitBytes n ++ rest) := by
  cases digits : digitBytes n with
  | nil => exact absurd digits (by simp [digitBytes])
  | cons b bs =>
    have digit := isDigitByte_digitBytes n b (digits ▸ List.mem_cons_self)
    refine if_neg fun sign => ?_
    rw [sign] at digit
    cases digit

theorem isToken_digitBytes (n : Nat) : IsToken (digitBytes n) := by
  have unsigned := minus_digitBytes n []
  rw [List.append_nil] at unsigned
  rw [IsToken, number?, unsigned]
  show Option.bind (whole? (digitBytes n)) _ = _
  rw [whole?_digitBytes]
  show some ([] ++ digitBytes n ++ [] ++ [], []) = _
  simp

end Digits

theorem wellWritten_ofNat (n : Nat) : WellWritten (ofNat n) := .number (isToken_digitBytes n)

end Json

end LowDimLP
