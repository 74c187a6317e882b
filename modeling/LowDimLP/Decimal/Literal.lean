import LowDimLP.Text.Bytes
/-!
# Decimal literals

A decimal literal is a sign, the digits before and after the point, and an exponent. Documents and
options write numbers by slightly different rules; both are read to a literal first.
-/

namespace LowDimLP

/-- `±whole.fraction · 10^exponent`, by digits. -/
structure Literal where
  negative : Bool
  whole : List Nat
  fraction : List Nat
  exponent : Int
  deriving DecidableEq, Repr

namespace Literal

/-- The value of a digit byte. -/
def digit (b : UInt8) : Nat := b.toNat - 48

/-- The digits at the head of the bytes, and what follows them. -/
def digits (s : Bytes) : List Nat × Bytes := ((s.takeWhile isDigitByte).map digit, s.dropWhile isDigitByte)

/-- The number that digits spell. -/
def value (ds : List Nat) : Nat := ds.foldl (fun n d => n * 10 + d) 0

/-- A sign at the head of the bytes: is it a minus, and what follows it. -/
def sign : Bytes → Bool × Bytes
  | b :: rest =>
    if b = byte '-' then (true, rest)
    else if b = byte '+' then (false, rest)
    else (false, b :: rest)
  | [] => (false, [])

/-- The exponent after its mark: an optional sign and at least one digit, to the end. -/
def exponentOf? (s : Bytes) : Option Int :=
  let (negative, s) := sign s
  match digits s with
  | (d :: ds, []) => some (if negative then -(value (d :: ds) : Int) else value (d :: ds))
  | _ => none

/-- The exponent part at the end of a literal; none is an exponent of zero. -/
def tailExponent? : Bytes → Option Int
  | [] => some 0
  | b :: rest => if b = byte 'e' ∨ b = byte 'E' then exponentOf? rest else none

/-- The literal that the whole of the bytes spells. Digits may be missing on one side of the point. -/
def ofBytes? (s : Bytes) : Option Literal :=
  let (negative, s) := sign s
  let (whole, s) := digits s
  let (fraction, s) :=
    match s with
    | b :: rest => if b = byte '.' then digits rest else ([], s)
    | [] => ([], s)
  if whole.isEmpty && fraction.isEmpty then none
  else (tailExponent? s).map fun exponent => ⟨negative, whole, fraction, exponent⟩

end Literal

end LowDimLP
