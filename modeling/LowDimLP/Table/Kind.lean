import LowDimLP.Scalar
import LowDimLP.Decimal.NumberText
import LowDimLP.Table.Cells
import LowDimLP.Text.DecimalDigit
/-!
# Kinds of columns

What a column holds is told by the looks of its first cells. A column of whole numbers is read as 64-bit
integers, so its zeros have no sign. In a column of numbers every cell is read to the nearest scalar. In a
column of truths, true is one and false is zero. In a column of anything else a text that is no number counts
as an empty cell. A cell that cannot be read in a column of its kind spoils the table.

Looks are stricter and wider than readings: a whole number with a plus sign and a number with blanks in front
can be read in the column of another, but do not tell it, and digits of any script tell a number that cannot
be read.
-/

namespace LowDimLP

namespace Table

/-- What the cells of a column are read as. -/
inductive Kind where
  | whole
  | number
  | truth
  | text
  deriving DecidableEq, Repr

namespace Kind

/-! ## The looks of a cell -/

/-- Does the text consist of digits? -/
def isDigits (s : List Char) : Bool := !s.isEmpty && s.all isDecimalDigit

/-- The text without a sign in front. -/
def dropSign : List Char → List Char
  | [] => []
  | c :: rest => if c = '+' ∨ c = '-' then rest else c :: rest

/-- Does the text look like an exponent with its mark? -/
def looksExponent : List Char → Bool
  | [] => false
  | c :: rest => decide (c = 'e' ∨ c = 'E') && isDigits (dropSign rest)

/-- Does the text look like a whole number? -/
def looksWhole : List Char → Bool
  | [] => false
  | c :: rest => isDigits (if c = '-' then rest else c :: rest)

/-- Does the text look like a number with a point or an exponent, or like the name of one? -/
def looksNumber (s : List Char) : Bool :=
  let s := dropSign s
  let whole := s.takeWhile isDecimalDigit
  match s.dropWhile isDecimalDigit with
  | [] => false
  | c :: rest =>
    if c = '.' then
      let fraction := rest.takeWhile isDecimalDigit
      let tail := rest.dropWhile isDecimalDigit
      if fraction.isEmpty then !whole.isEmpty && tail.isEmpty else tail.isEmpty || looksExponent tail
    else if whole.isEmpty then s == "inf".toList || s == "NaN".toList
    else looksExponent (c :: rest)

/-- Does the text look like a truth, in any case? -/
def looksTruth (s : List Char) : Bool :=
  let s := s.map Char.toLower
  s == "true".toList || s == "false".toList

/-- The kind that one cell tells. -/
def ofText (s : String) : Kind :=
  if looksTruth s.toList then truth
  else if looksNumber s.toList then number
  else if looksWhole s.toList then whole
  else text

/-- The kind that several cells tell: whole numbers among numbers are numbers, and any other mixture is
text. -/
def ofTexts (texts : List String) : Kind :=
  match texts.map ofText with
  | [] => text
  | kind :: kinds =>
    if kinds.all (· == kind) then kind
    else if (kind :: kinds).all fun k => k == whole || k == number then number
    else text

/-! ## Reading a cell -/

/-- The whole number that a text spells: an optional sign and digits. -/
def wholeNumber? (s : Bytes) : Option Int :=
  let (negative, digits) := Literal.sign s
  if digits.isEmpty || !digits.all isDigitByte then none
  else
    let n : Int := Literal.value (digits.map Literal.digit)
    some (if negative then -n else n)

/-- The 64-bit integer that a text spells. -/
def int64? (s : Bytes) : Option Int := (wholeNumber? s).filter fun n =>
  Int64.minValue.toInt ≤ n && n ≤ Int64.maxValue.toInt

/-- The truth that a text spells, in any case. -/
def truth? (s : Bytes) : Option Bool :=
  let s := s.map NumberText.lower
  if s = Utf8.encode "true" then some true
  else if s = Utf8.encode "false" then some false
  else none

/-- Reads what follows the blanks in front, if anything does; the outer `none` means failure, the inner one
an empty cell. -/
def readAfterBlanks? {β : Type} (read? : Bytes → Option β) (s : Bytes) : Option (Option β) :=
  let s := s.dropWhile fun b => b == byte ' ' || b == byte '\t'
  if s.isEmpty then some none else (read? s).map some

variable {α : Type} [Scalar α] [NumberText α]

/-- The scalar of a whole number. -/
def ofWhole : Int → α
  | .ofNat n => Scalar.ofNat n
  | .negSucc n => -Scalar.ofNat (n + 1)

/-- The cell of a column of the given kind, as it is written; the outer `none` means that it does not fit,
the inner one that it is empty. -/
def read? (kind : Kind) (cell : Bytes) : Option (Option α) :=
  let cell := dropReturn cell
  match kind with
  | whole => readAfterBlanks? (fun s => (int64? s).map ofWhole) (inner cell)
  | number => readAfterBlanks? NumberText.ofText? (inner cell)
  | truth =>
    if (inner cell).isEmpty then some none
    else (truth? (inner cell)).map fun b => some (Scalar.ofNat b.toNat)
  | text => do
    let spelled ← spelled? cell
    let _ ← Utf8.decode? spelled
    return NumberText.ofText? spelled

end Kind

end Table

end LowDimLP
