import LowDimLP.Table
import LowDimLP.Table.Kind
/-!
# Reading tables

The first line of a table names its columns, the next hundred lines tell their kinds, and every line after
the first is a row. A line may miss cells at its end, all of them if it is blank, but must not have too many.
-/

namespace LowDimLP

namespace Table

/-- How many lines tell the kinds of the columns. -/
def sampleSize : Nat := 100

/-- The text without a byte order mark and line ends in front. -/
def trimStart (text : Bytes) : Bytes :=
  let text := if text.take 3 = [0xEF, 0xBB, 0xBF] then text.drop 3 else text
  text.dropWhile fun b => b == byte '\n' || b == byte '\r'

/-- Distinct names: a repetition is marked, the first one with zero. -/
def distinctNames (names : List String) : List String :=
  names.zipIdx.map fun (name, i) =>
    match (names.take i).count name with
    | 0 => name
    | k + 1 => name ++ "_duplicated_" ++ toString k

/-- The kind of a column, told by its cells in a sample that are not empty; none if one is not text. -/
def kindOf? (sample : List (List Bytes)) (column : Nat) : Option Kind := do
  let cells := (sample.filterMap (·[column]?)).filter (!·.isEmpty)
  return Kind.ofTexts (← cells.mapM fun cell => Utf8.decode? (inner cell))

variable {α : Type} [Scalar α] [NumberText α]

/-- The cells of a column of a kind, if they all fit it. -/
def readCells? {height : Nat} (kind : Kind) (cells : Vector Bytes height) :
    Option (Vector (Option α) height) :=
  cells.mapM kind.read?

/-- The columns with the given names over the given rows. -/
def columnsOf? (names : List String) (sample rows : List (List Bytes)) :
    Option (List (Column α rows.length)) :=
  let rows : Vector (List Bytes) rows.length := ⟨rows.toArray, rfl⟩
  (distinctNames names).zipIdx.mapM fun (name, i) => do
    return ⟨name, ← readCells? (← kindOf? sample i) (rows.map fun row => row[i]?.getD [])⟩

/-- The table a text holds; none if it has no line, a line has too many cells, a cell does not fit its
column, or the names are not text or cannot be told apart. -/
def ofBytes? (text : Bytes) : Option (Table α) := do
  let text := trimStart text
  if text.isEmpty then none
  let (header, body) := cutLine false text
  let names ← (cellsOf header).mapM fun cell => Utf8.decode? (inner cell)
  let sample := (firstLines sampleSize body).map cellsOf
  let rows := lines body
  let columns : List (Column α rows.length) ← columnsOf? names sample rows
  if h : (columns.map Column.name).Nodup then
    if rows.all (·.length ≤ names.length) then return ⟨rows.length, columns, h⟩ else none
  else none

end Table

end LowDimLP
