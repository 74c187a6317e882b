import LowDimLP.Text.Bytes
/-!
# Cells of a table

A table is written line by line, its cells divided by commas. A cell that begins with a quotation mark is
quoted: as long as the marks in it are not even in number, commas and line ends belong to it. A cell is kept
as it is written, with its marks and with a carriage return that ends its line.
-/

namespace LowDimLP

namespace Table

/-! ## Cutting into cells -/

/-- Where a reader stands in a cell. -/
inductive Stand where
  /-- Before its first byte. -/
  | atStart
  /-- In a cell without quotes. -/
  | plain
  /-- In a quoted cell after an odd number of quotation marks. -/
  | quoted
  /-- In a quoted cell after an even number of quotation marks. -/
  | afterQuote
  deriving DecidableEq, Repr

/-- Where a reader stands after a byte that belongs to the cell. -/
def Stand.step (b : UInt8) : Stand → Stand
  | atStart => if b = byte '"' then quoted else plain
  | plain => plain
  | quoted => if b = byte '"' then afterQuote else quoted
  | afterQuote => if b = byte '"' then quoted else afterQuote

/-- Puts a byte in front of the first cell of the first line. -/
def pushByte (b : UInt8) : List (List Bytes) → List (List Bytes)
  | (cell :: cells) :: lines => ((b :: cell) :: cells) :: lines
  | lines => lines

/-- Puts an empty cell in front of the first line. -/
def pushCell : List (List Bytes) → List (List Bytes)
  | cells :: lines => ([] :: cells) :: lines
  | [] => []

/-- The lines of a text, each as its cells; after a comma or a line end at the end an empty cell stands. -/
def splitFrom : Stand → Bytes → List (List Bytes)
  | _, [] => [[[]]]
  | stand, b :: rest =>
    if b = byte ',' ∧ stand ≠ .quoted then pushCell (splitFrom .atStart rest)
    else if b = byte '\n' ∧ stand ≠ .quoted then [[]] :: splitFrom .atStart rest
    else pushByte b (splitFrom (stand.step b) rest)

/-- The lines of a text, each as its cells. A comma or a line end at the end of the text opens no cell. -/
def lines (text : Bytes) : List (List Bytes) :=
  let all := splitFrom .atStart text
  let last := all.getLastD []
  let last := if last.getLast? = some [] then last.dropLast else last
  all.dropLast ++ [last].filter (!·.isEmpty)

/-! ## Cutting at line ends alone -/

/-- The first line of a text and what follows it. A line end after an odd number of quotation marks belongs
to the line. -/
def cutLine : Bool → Bytes → Bytes × Bytes
  | _, [] => ([], [])
  | odd, b :: rest =>
    if b = byte '\n' ∧ odd = false then ([], rest)
    else
      let (line, after) := cutLine (odd != (b == byte '"')) rest
      (b :: line, after)

/-- At most so many lines from the front of a text. -/
def firstLines : Nat → Bytes → List Bytes
  | 0, _ => []
  | _ + 1, [] => []
  | n + 1, text =>
    let (line, after) := cutLine false text
    line :: firstLines n after

/-- Drops a carriage return at the end. -/
def dropReturn (s : Bytes) : Bytes := if s.getLast? = some (byte '\r') then s.dropLast else s

/-- The cells of a line; a carriage return at its end is no part of them unless it is all of the line. -/
def cellsOf (line : Bytes) : List Bytes :=
  (splitFrom .atStart (if 1 < line.length then dropReturn line else line)).headD []

/-! ## What is written in a cell -/

/-- Does the cell begin with a quotation mark? -/
def isQuoted (cell : Bytes) : Bool := cell.head? == some (byte '"')

/-- The cell without the marks around it; for a quoted cell, what stands between its two ends. -/
def inner (cell : Bytes) : Bytes :=
  if isQuoted cell && decide (1 < cell.length) then (cell.drop 1).dropLast else cell

/-- The text between quotation marks: of two marks in a row one stays, and a single one is dropped. -/
def unquote : (afterMark : Bool) → Bytes → Bytes
  | _, [] => []
  | afterMark, b :: rest =>
    if b = byte '"' then if afterMark then b :: unquote false rest else unquote true rest
    else b :: unquote false rest

/-- The text that a cell spells; none if a quotation is not closed at its end. -/
def spelled? (cell : Bytes) : Option Bytes :=
  if !isQuoted cell then some cell
  else if 1 < cell.length ∧ cell.getLast? = some (byte '"') then some (unquote false (inner cell))
  else none

end Table

end LowDimLP
