import LowDimLP.Json.Value
/-!
# Reading documents

A strict reader: one value, blanks around it, and nothing else. Numbers and strings are scanned but not
interpreted, so a number may be out of range and a string need not be text. Nesting is limited only by
the length of the document, which bounds the steps of the reader.
-/

namespace LowDimLP

namespace Json

/-- Is the byte a blank? -/
def isBlank (b : UInt8) : Bool :=
  b == byte ' ' || b == byte '\n' || b == byte '\r' || b == byte '\t'

/-- The bytes after leading blanks. -/
def skipBlanks (s : Bytes) : Bytes := s.dropWhile isBlank

/-- The bytes after a fixed word. -/
def afterWord? (word : String) (s : Bytes) : Option Bytes :=
  let word := Utf8.encode word
  if word.isPrefixOf s then some (s.drop word.length) else none

/-! ## Numbers -/

/-- Splits off leading digits, of which there must be one. -/
def digits? (s : Bytes) : Option (Bytes × Bytes) :=
  let ds := s.takeWhile isDigitByte
  if ds.isEmpty then none else some (ds, s.dropWhile isDigitByte)

/-- Splits off the digits before the point: a zero that no digit follows, or digits. -/
def whole? (s : Bytes) : Option (Bytes × Bytes) := do
  let (ds, rest) ← digits? s
  match ds with
  | z :: _ :: _ => if z = byte '0' then none else some (ds, rest)
  | _ => some (ds, rest)

/-- Splits off a point and the digits after it, if there is a point. -/
def fraction? : Bytes → Option (Bytes × Bytes)
  | b :: rest =>
    if b = byte '.' then (digits? rest).map fun (ds, rest) => (b :: ds, rest) else some ([], b :: rest)
  | [] => some ([], [])

/-- Splits off a sign, if there is one. -/
def plusOrMinus : Bytes → Bytes × Bytes
  | b :: rest => if b = byte '+' ∨ b = byte '-' then ([b], rest) else ([], b :: rest)
  | [] => ([], [])

/-- Splits off an exponent, if there is one. -/
def exponent? : Bytes → Option (Bytes × Bytes)
  | b :: rest =>
    if b = byte 'e' ∨ b = byte 'E' then
      let (sign, rest) := plusOrMinus rest
      (digits? rest).map fun (ds, rest) => (b :: (sign ++ ds), rest)
    else some ([], b :: rest)
  | [] => some ([], [])

/-- Splits off a minus, if there is one. -/
def minus : Bytes → Bytes × Bytes
  | b :: rest => if b = byte '-' then ([b], rest) else ([], b :: rest)
  | [] => ([], [])

/-- Splits off a number token. -/
def number? (s : Bytes) : Option (Bytes × Bytes) := do
  let (sign, s) := minus s
  let (whole, s) ← whole? s
  let (fraction, s) ← fraction? s
  let (exponent, s) ← exponent? s
  return (sign ++ whole ++ fraction ++ exponent, s)

/-! ## Strings -/

/-- Splits off the rest of a string after its opening quote, up to the closing one. -/
def stringBody? : Bytes → Option (Bytes × Bytes)
  | [] => none
  | b :: rest =>
    if b = byte '"' then some ([], rest)
    else if b = byte '\\' then
      match rest with
      | [] => none
      | e :: rest =>
        if e = byte 'u' then
          match rest with
          | h₁ :: h₂ :: h₃ :: h₄ :: rest =>
            if (hexUnit? h₁ h₂ h₃ h₄).isSome then
              (stringBody? rest).map fun (body, rest) => (b :: e :: h₁ :: h₂ :: h₃ :: h₄ :: body, rest)
            else none
          | _ => none
        else if (shortEscape? e).isSome then
          (stringBody? rest).map fun (body, rest) => (b :: e :: body, rest)
        else none
    else if b < 32 then none
    else (stringBody? rest).map fun (body, rest) => (b :: body, rest)

/-! ## Values -/

mutual

/-- Splits off a value. -/
def value? : Nat → Bytes → Option (Json × Bytes)
  | 0, _ => none
  | fuel + 1, s =>
    match skipBlanks s with
    | [] => none
    | b :: rest =>
      if b = byte '"' then (stringBody? rest).map fun (body, rest) => (.string body, rest)
      else if b = byte '[' then
        match skipBlanks rest with
        | [] => none
        | c :: rest =>
          if c = byte ']' then some (.array [], rest)
          else (itemList? fuel (c :: rest)).map fun (items, rest) => (.array items, rest)
      else if b = byte '\x7b' then
        match skipBlanks rest with
        | [] => none
        | c :: rest =>
          if c = byte '\x7d' then some (.object [], rest)
          else (memberList? fuel (c :: rest)).map fun (members, rest) => (.object members, rest)
      else if b = byte 'n' then (afterWord? "null" (b :: rest)).map (.null, ·)
      else if b = byte 't' then (afterWord? "true" (b :: rest)).map (.bool true, ·)
      else if b = byte 'f' then (afterWord? "false" (b :: rest)).map (.bool false, ·)
      else (number? (b :: rest)).map fun (token, rest) => (.number token, rest)

/-- Splits off the items of an array that has some, with the closing bracket. -/
def itemList? : Nat → Bytes → Option (List Json × Bytes)
  | 0, _ => none
  | fuel + 1, s => do
    let (item, s) ← value? fuel s
    match skipBlanks s with
    | [] => none
    | b :: rest =>
      if b = byte ']' then return ([item], rest)
      else if b = byte ',' then
        let (items, rest) ← itemList? fuel rest
        return (item :: items, rest)
      else none

/-- Splits off the members of an object that has some, with the closing brace. -/
def memberList? : Nat → Bytes → Option (List (Bytes × Json) × Bytes)
  | 0, _ => none
  | fuel + 1, s => do
    match skipBlanks s with
    | [] => none
    | q :: rest =>
      if q = byte '"' then
        let (key, s) ← stringBody? rest
        match skipBlanks s with
        | [] => none
        | c :: rest =>
          if c = byte ':' then
            let (value, s) ← value? fuel rest
            match skipBlanks s with
            | [] => none
            | b :: rest =>
              if b = byte '\x7d' then return ([(key, value)], rest)
              else if b = byte ',' then
                let (members, rest) ← memberList? fuel rest
                return ((key, value) :: members, rest)
              else none
          else none
      else none

end

/-- The value a document holds. -/
def parse? (document : Bytes) : Option Json := do
  let (value, rest) ← value? (2 * document.length + 2) document
  if (skipBlanks rest).isEmpty then return value else none

end Json

end LowDimLP
