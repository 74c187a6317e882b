import LowDimLP.Text.Bytes
/-!
# Text as bytes

Reading the UTF-8 bytes of a text gives the text back (`decode?_encode`). The leading byte of a character
tells how many more there are, and every one of them carries six bits; `decodeChars_one` to
`decodeChars_four` read one character of each length.
-/

namespace LowDimLP.Utf8

section Characters

variable (m n k l : Nat) (rest : Bytes)

theorem char?_toNat {least : Nat} {c : Char} (h : least ≤ c.toNat) : char? least c.toNat = some c := by
  have valid : c.toNat.isValidChar := c.valid
  rw [char?, dif_pos valid, if_pos h]
  rfl

theorem toNat_ofNat_of_lt {n : Nat} (h : n < 256) : (UInt8.ofNat n).toNat = n := by
  rw [UInt8.toNat_ofNat']
  omega

theorem tail?_ofNat : tail? (UInt8.ofNat (n % 64 + 0x80)) = some (n % 64) := by
  rw [tail?, toNat_ofNat_of_lt (by omega), if_pos (by omega)]
  congr 1
  omega

theorem decodeChars_one (h : m < 0x80) :
    decodeChars (UInt8.ofNat m :: rest) = do
      let c ← char? 0 m
      return c :: (← decodeChars rest) := by
  rw [decodeChars.eq_def]
  simp only [toNat_ofNat_of_lt (show m < 256 by omega), if_pos h]

theorem decodeChars_two (h : m < 0x20) :
    decodeChars (UInt8.ofNat (m + 0xc0) :: UInt8.ofNat (n % 64 + 0x80) :: rest) = do
      let c ← char? 0x80 (m * 64 + n % 64)
      return c :: (← decodeChars rest) := by
  have lead : (m + 0xc0) % 32 = m := by omega
  rw [decodeChars.eq_def]
  simp only [toNat_ofNat_of_lt (show m + 0xc0 < 256 by omega), tail?_ofNat, lead,
    if_neg (show ¬m + 0xc0 < 0x80 by omega), if_pos (show (m + 0xc0) / 32 = 6 by omega)]
  rfl

theorem decodeChars_three (h : m < 0x10) :
    decodeChars (UInt8.ofNat (m + 0xe0) :: UInt8.ofNat (n % 64 + 0x80) :: UInt8.ofNat (k % 64 + 0x80) ::
        rest) = do
      let c ← char? 0x800 ((m * 64 + n % 64) * 64 + k % 64)
      return c :: (← decodeChars rest) := by
  have lead : (m + 0xe0) % 16 = m := by omega
  rw [decodeChars.eq_def]
  simp only [toNat_ofNat_of_lt (show m + 0xe0 < 256 by omega), tail?_ofNat, lead,
    if_neg (show ¬m + 0xe0 < 0x80 by omega), if_neg (show ¬(m + 0xe0) / 32 = 6 by omega),
    if_pos (show (m + 0xe0) / 16 = 14 by omega)]
  rfl

theorem decodeChars_four (h : m < 0x08) :
    decodeChars (UInt8.ofNat (m + 0xf0) :: UInt8.ofNat (n % 64 + 0x80) :: UInt8.ofNat (k % 64 + 0x80) ::
        UInt8.ofNat (l % 64 + 0x80) :: rest) = do
      let c ← char? 0x10000 (((m * 64 + n % 64) * 64 + k % 64) * 64 + l % 64)
      return c :: (← decodeChars rest) := by
  have lead : (m + 0xf0) % 8 = m := by omega
  rw [decodeChars.eq_def]
  simp only [toNat_ofNat_of_lt (show m + 0xf0 < 256 by omega), tail?_ofNat, lead,
    if_neg (show ¬m + 0xf0 < 0x80 by omega), if_neg (show ¬(m + 0xf0) / 32 = 6 by omega),
    if_neg (show ¬(m + 0xf0) / 16 = 14 by omega), if_pos (show (m + 0xf0) / 8 = 30 by omega)]
  rfl

end Characters

/-- The bytes of a character are read as the character, whatever follows them. -/
theorem decodeChars_append (c : Char) (rest : Bytes) :
    decodeChars (String.utf8EncodeChar c ++ rest) = (decodeChars rest).map (c :: ·) := by
  have largest : c.toNat < 0x110000 := by
    have valid : c.toNat.isValidChar := c.valid
    simp only [Nat.isValidChar] at valid
    omega
  rw [String.utf8EncodeChar]
  show decodeChars ((if c.toNat ≤ 0x7f then _ else if c.toNat ≤ 0x7ff then _ else if c.toNat ≤ 0xffff
    then _ else _) ++ rest) = _
  split
  · refine (decodeChars_one c.toNat rest (by omega)).trans ?_
    rw [char?_toNat (Nat.zero_le _), Option.map_eq_bind]
    rfl
  split
  · have point : c.toNat / 64 % 0x20 * 64 + c.toNat % 64 = c.toNat := by omega
    refine (decodeChars_two (c.toNat / 64 % 0x20) c.toNat rest (by omega)).trans ?_
    rw [point, char?_toNat (by omega), Option.map_eq_bind]
    rfl
  split
  · have point : (c.toNat / 4096 % 0x10 * 64 + c.toNat / 64 % 64) * 64 + c.toNat % 64 = c.toNat := by
      omega
    refine (decodeChars_three (c.toNat / 4096 % 0x10) (c.toNat / 64) c.toNat rest (by omega)).trans ?_
    rw [point, char?_toNat (by omega), Option.map_eq_bind]
    rfl
  · have point : ((c.toNat / 262144 % 0x08 * 64 + c.toNat / 4096 % 64) * 64 + c.toNat / 64 % 64) * 64 +
        c.toNat % 64 = c.toNat := by
      omega
    refine (decodeChars_four (c.toNat / 262144 % 0x08) (c.toNat / 4096) (c.toNat / 64) c.toNat rest
      (by omega)).trans ?_
    rw [point, char?_toNat (by omega), Option.map_eq_bind]
    rfl

theorem decodeChars_flatMap (cs : List Char) : decodeChars (cs.flatMap String.utf8EncodeChar) = some cs := by
  induction cs with
  | nil => rfl
  | cons c cs ih => rw [List.flatMap_cons, decodeChars_append, ih, Option.map_some]

@[simp] theorem decode?_encode (s : String) : decode? (encode s) = some s := by
  rw [decode?, encode, decodeChars_flatMap, Option.map_some, String.ofList_toList]

end LowDimLP.Utf8
