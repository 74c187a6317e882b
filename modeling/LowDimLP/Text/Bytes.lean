/-!
# Bytes and text

Files are rows of bytes. A text is written as its UTF-8 bytes; reading it back accepts the shortest
encoding of each character only, no surrogates, and nothing beyond the last code point.
-/

namespace LowDimLP

/-- The contents of a file. -/
abbrev Bytes := List UInt8

/-- The byte of an ASCII character. -/
abbrev byte (c : Char) : UInt8 := c.toUInt8

/-- Is the byte a decimal digit? -/
def isDigitByte (b : UInt8) : Bool := decide (byte '0' ≤ b) && decide (b ≤ byte '9')

namespace Utf8

/-- The bytes of a text. -/
def encode (s : String) : Bytes := s.toList.flatMap String.utf8EncodeChar

/-- The six bits a continuation byte carries. -/
def tail? (b : UInt8) : Option Nat := if b.toNat / 64 = 2 then some (b.toNat % 64) else none

/-- The character with code point `n`, if it is one and not below `least`. -/
def char? (least n : Nat) : Option Char :=
  if h : n.isValidChar then if least ≤ n then some (Char.ofNatAux n h) else none else none

/-- The characters of a row of bytes, if it is the encoding of some. -/
def decodeChars : Bytes → Option (List Char)
  | [] => some []
  | a :: rest =>
    if a.toNat < 0x80 then return (← char? 0 a.toNat) :: (← decodeChars rest)
    else if a.toNat / 32 = 6 then
      match rest with
      | b :: rest => do
        let c ← char? 0x80 (a.toNat % 32 * 64 + (← tail? b))
        return c :: (← decodeChars rest)
      | _ => none
    else if a.toNat / 16 = 14 then
      match rest with
      | b :: c :: rest => do
        let c ← char? 0x800 ((a.toNat % 16 * 64 + (← tail? b)) * 64 + (← tail? c))
        return c :: (← decodeChars rest)
      | _ => none
    else if a.toNat / 8 = 30 then
      match rest with
      | b :: c :: d :: rest => do
        let c ← char? 0x10000 (((a.toNat % 8 * 64 + (← tail? b)) * 64 + (← tail? c)) * 64 + (← tail? d))
        return c :: (← decodeChars rest)
      | _ => none
    else none

/-- The text of a row of bytes, if it is the encoding of one. -/
def decode? (bytes : Bytes) : Option String := (decodeChars bytes).map String.ofList

end Utf8

end LowDimLP
