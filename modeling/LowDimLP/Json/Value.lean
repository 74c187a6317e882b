import LowDimLP.Decimal.NumberText
/-!
# Documents

A document is a JSON value. Numbers and strings keep the text they are written with: a number that no
reader asks for need not be in range, and a string that no reader asks for need not be text. Reading a
number goes through `NumberText`, reading a string through `unescape?`.
-/

namespace LowDimLP

/-- A JSON value, with the written form of its leaves. -/
inductive Json where
  | null
  | bool (b : Bool)
  /-- A number token. -/
  | number (token : Bytes)
  /-- A string, as it stands between its quotes. -/
  | string (written : Bytes)
  | array (items : List Json)
  /-- Keys, as they stand between their quotes, with their values. -/
  | object (members : List (Bytes × Json))

namespace Json

/-! ## Strings -/

/-- A lower-case hexadecimal digit. -/
def hexDigit (n : Nat) : UInt8 := if n < 10 then byte '0' + n.toUInt8 else byte 'a' + (n - 10).toUInt8

/-- The value of a hexadecimal digit. -/
def hexValue? (b : UInt8) : Option Nat :=
  if byte '0' ≤ b ∧ b ≤ byte '9' then some (b.toNat - 48)
  else if byte 'a' ≤ b ∧ b ≤ byte 'f' then some (b.toNat - 87)
  else if byte 'A' ≤ b ∧ b ≤ byte 'F' then some (b.toNat - 55)
  else none

/-- The written form of a byte of a string. -/
def escapeByte (b : UInt8) : Bytes :=
  if b = byte '"' then [byte '\\', byte '"']
  else if b = byte '\\' then [byte '\\', byte '\\']
  else if b = 8 then [byte '\\', byte 'b']
  else if b = 9 then [byte '\\', byte 't']
  else if b = 10 then [byte '\\', byte 'n']
  else if b = 12 then [byte '\\', byte 'f']
  else if b = 13 then [byte '\\', byte 'r']
  else if b < 32 then
    [byte '\\', byte 'u', byte '0', byte '0', hexDigit (b.toNat / 16), hexDigit (b.toNat % 16)]
  else [b]

/-- The written form of a text. -/
def escape (s : String) : Bytes := (Utf8.encode s).flatMap escapeByte

/-- What a one-letter escape stands for. -/
def shortEscape? (b : UInt8) : Option UInt8 :=
  if b = byte '"' ∨ b = byte '\\' ∨ b = byte '/' then some b
  else if b = byte 'b' then some 8
  else if b = byte 'f' then some 12
  else if b = byte 'n' then some 10
  else if b = byte 'r' then some 13
  else if b = byte 't' then some 9
  else none

/-- The number that four hexadecimal digits spell. -/
def hexUnit? (a b c d : UInt8) : Option Nat := do
  return ((← hexValue? a) * 16 + (← hexValue? b)) * 256 + ((← hexValue? c) * 16 + (← hexValue? d))

/-- Does a 16-bit unit open a pair? -/
def opensPair (u : Nat) : Bool := decide (0xd800 ≤ u) && decide (u < 0xdc00)

/-- Does a 16-bit unit close a pair? -/
def closesPair (u : Nat) : Bool := decide (0xdc00 ≤ u) && decide (u < 0xe000)

/-- The UTF-8 bytes of a code point. -/
def encodePoint (n : Nat) : Bytes := String.utf8EncodeChar (Char.ofNat n)

/-- The bytes a written string stands for; a unit of a pair must not stand alone. -/
def unescapeBytes : Bytes → Option Bytes
  | [] => some []
  | b :: rest =>
    if b = byte '\\' then
      match rest with
      | [] => none
      | e :: rest =>
        if e = byte 'u' then
          match rest with
          | h₁ :: h₂ :: h₃ :: h₄ :: rest => do
            let u ← hexUnit? h₁ h₂ h₃ h₄
            if closesPair u then none
            else if opensPair u then
              match rest with
              | s :: t :: g₁ :: g₂ :: g₃ :: g₄ :: rest =>
                let v ← hexUnit? g₁ g₂ g₃ g₄
                if s = byte '\\' ∧ t = byte 'u' ∧ closesPair v then
                  return encodePoint (0x10000 + (u - 0xd800) * 0x400 + (v - 0xdc00)) ++
                    (← unescapeBytes rest)
                else none
              | _ => none
            else return encodePoint u ++ (← unescapeBytes rest)
          | _ => none
        else return (← shortEscape? e) :: (← unescapeBytes rest)
    else return b :: (← unescapeBytes rest)

/-- The text a written string stands for, if it stands for one. -/
def unescape? (written : Bytes) : Option String := (unescapeBytes written).bind Utf8.decode?

/-! ## Building -/

/-- A text as a value. -/
def ofString (s : String) : Json := .string (escape s)

/-- A natural number as a value. -/
def ofNat (n : Nat) : Json := .number (NumberText.digitBytes n)

/-- A scalar as a value; one that is no number is written as null. -/
def ofScalar {α : Type} [Scalar α] [NumberText α] (x : α) : Json :=
  if Scalar.isFinite x then .number (NumberText.print x) else .null

/-- A row of scalars as a value. -/
def ofScalars {α : Type} [Scalar α] [NumberText α] (xs : List α) : Json := .array (xs.map ofScalar)

/-- Something that may be absent as a value. -/
def ofOption {β : Type} (f : β → Json) : Option β → Json
  | some x => f x
  | none => .null

/-- Named values. -/
def record (members : List (String × Json)) : Json :=
  .object (members.map fun (name, value) => (escape name, value))

/-! ## Taking apart -/

/-- The scalar a number stands for. -/
def scalar? {α : Type} [NumberText α] : Json → Option α
  | .number token => NumberText.ofToken? token
  | _ => none

/-- The items of an array. -/
def items? : Json → Option (List Json)
  | .array items => some items
  | _ => none

/-- The scalars of an array of numbers. -/
def scalars? {α : Type} [NumberText α] (value : Json) : Option (List α) := do
  (← value.items?).mapM scalar?

/-- The only value among the members with the given name. -/
def only? (name : String) (members : List (String × Json)) : Option Json :=
  match members.filter fun member => member.1 == name with
  | [(_, value)] => some value
  | _ => none

/-- The named fields of a record, in the order of the names. A record is an object, in which each named
field stands exactly once and other fields are ignored, or the array of its fields. -/
def fields? (names : List String) : Json → Option (List Json)
  | .array items => if items.length = names.length then some items else none
  | .object members => do
    let members ← members.mapM fun (key, value) => do return (← unescape? key, value)
    names.mapM fun name => only? name members
  | _ => none

end Json

end LowDimLP
