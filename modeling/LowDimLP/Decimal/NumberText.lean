import LowDimLP.Scalar
import LowDimLP.Decimal.Literal
import LowDimLP.Decimal.Shortest
/-!
# Numbers as text

How scalars are written in documents and read from documents, options and tables. A number of a document
is read by scaling its leading digits, as many as fit into 64 bits, by one power of ten, and refused when
that overflows. A number of an option or a table is read to the nearest scalar, and may be infinite or
undefined. Doubles are written with the fewest digits that read back, positionally from `1e-5` to below
`1e16` and with a signed exponent elsewhere.
-/

namespace LowDimLP

/-- The written form of a type of scalars. -/
class NumberText (α : Type) where
  /-- The number token of a finite scalar. -/
  print : α → Bytes
  /-- The scalar a number token of a document stands for. -/
  ofToken? : Bytes → Option α
  /-- The scalar a free text stands for. -/
  ofText? : Bytes → Option α

namespace NumberText

/-! ## Writing -/

/-- The decimal digits of a number. -/
def digitBytes (n : Nat) : Bytes := (Nat.toDigits 10 n).map Char.toUInt8

/-- An exponent with its mark; its sign is always written. -/
def exponentBytes (n : Int) : Bytes :=
  byte 'e' :: (if n < 0 then byte '-' else byte '+') :: digitBytes n.natAbs

/-- How a decimal is laid out. -/
structure Layout where
  /-- Positional notation is used when the point stands after more than this many digits, ... -/
  pointAbove : Int
  /-- ... and after at most this many. -/
  pointUpTo : Int

/-- The layout of numbers in documents. -/
def documentLayout : Layout := ⟨-5, 16⟩

/-- A decimal in its layout. -/
def Layout.write (layout : Layout) (d : Shortest.Decimal) : Bytes :=
  let digits := digitBytes d.digits
  let point := digits.length + d.exponent
  let zeros := fun n => List.replicate n (byte '0')
  if 0 < point ∧ point ≤ layout.pointUpTo then
    if 0 ≤ d.exponent then digits ++ zeros d.exponent.toNat ++ [byte '.', byte '0']
    else digits.take point.toNat ++ byte '.' :: digits.drop point.toNat
  else if layout.pointAbove < point ∧ point ≤ 0 then
    byte '0' :: byte '.' :: (zeros (-point).toNat ++ digits)
  else
    let mantissa :=
      match digits with
      | [] => []
      | [d] => [d]
      | d :: ds => d :: byte '.' :: ds
    mantissa ++ exponentBytes (point - 1)

/-- The text of a finite double. -/
def floatBytes (x : Float) : Bytes :=
  let text := documentLayout.write (Shortest.ofFloat x)
  if x.toBits.toNat >>> 63 = 1 then byte '-' :: text else text

/-! ## Reading -/

/-- Takes digits into a significand while it fits into 64 bits; gives it and the digits left. -/
def takeFitting : Nat → List Nat → Nat × List Nat
  | n, [] => (n, [])
  | n, d :: ds => if n * 10 + d < UInt64.size then takeFitting (n * 10 + d) ds else (n, d :: ds)

/-- A power of ten. -/
def pow10 (n : Nat) : Float := Float.ofScientific 1 false n

/-- Scales by a power of ten; beyond the range of the powers a value overflows, or sinks by `1e308` at a
time. -/
def scale : Nat → Float → Int → Option Float
  | 0, x, _ => some x
  | tries + 1, x, e =>
    if e.natAbs ≤ 308 then
      if 0 ≤ e then
        let y := x * pow10 e.natAbs
        if y.isFinite then some y else none
      else some (x / pow10 e.natAbs)
    else if x == 0.0 then some x
    else if 0 ≤ e then none
    else scale tries (x / pow10 308) (e + 308)

/-- A literal by its leading digits, scaled once. -/
def scaled? (l : Literal) : Option Float :=
  let (n, overflow) := takeFitting 0 l.whole
  let (m, unread) := takeFitting n l.fraction
  let e := l.exponent + overflow.length - (l.fraction.length - unread.length)
  (scale 4 (Float.ofScientific m false 0) e).map fun x => if l.negative then -x else x

/-- The double nearest to a literal; infinite when it is too large. -/
def nearest (l : Literal) : Float :=
  let m := Literal.value (l.whole ++ l.fraction)
  let e := l.exponent - l.fraction.length
  let magnitude := (Nat.toDigits 10 m).length + e
  let x :=
    if m = 0 ∨ magnitude < -330 then 0.0
    else if 330 < magnitude then 1.0 / 0.0
    else Float.ofScientific m (decide (e < 0)) e.natAbs
  if l.negative then -x else x

/-- The lower-case form of an ASCII letter. -/
def lower (b : UInt8) : UInt8 := if byte 'A' ≤ b ∧ b ≤ byte 'Z' then b + 32 else b

/-- Infinities and the undefined value, by name and in any case. -/
def special? (s : Bytes) : Option Float :=
  let (negative, name) := Literal.sign s
  let name := name.map lower
  let x : Option Float :=
    if name = Utf8.encode "inf" ∨ name = Utf8.encode "infinity" then some (1.0 / 0.0)
    else if name = Utf8.encode "nan" then some (0.0 / 0.0)
    else none
  x.map fun x => if negative then -x else x

instance : NumberText Float where
  print := floatBytes
  ofToken? s := (Literal.ofBytes? s).bind scaled?
  ofText? s :=
    match Literal.ofBytes? s with
    | some l => some (nearest l)
    | none => special? s

end NumberText

end LowDimLP
