import LowDimLP.Problem
import LowDimLP.Json.Value
import LowDimLP.Table
/-!
# Problem files

A problem as a file holds it: the coordinates of the direction and, per constraint, those of a normal with
an offset. Nothing is checked before the file is turned into a problem; then the direction is checked first
and the constraints in order. A problem goes back to a file with its unit normals and rescaled offsets.

A file has two forms. As a document it is a record of records. As a table it has a row per constraint, a
column `offset`, and a column for each coordinate of the normals; the direction comes from elsewhere.
-/

namespace LowDimLP

/-- The constraint `normal·x ≤ offset` of a file. -/
structure ConstraintRow (α : Type) where
  normal : List α
  offset : α
  deriving DecidableEq, Repr

/-- What a problem file holds. -/
structure ProblemFile (α : Type) where
  direction : List α
  constraints : List (ConstraintRow α)
  deriving DecidableEq, Repr

/-- Why a file holds no problem. -/
inductive ProblemError where
  | direction (cause : GeometryError)
  | constraint (index : Nat) (cause : GeometryError)
  deriving DecidableEq, Repr

namespace ProblemError

/-- The part of the file at fault. -/
def context : ProblemError → String
  | direction _ => "direction"
  | constraint index _ => "constraint " ++ toString index

/-- What is wrong with that part. -/
def cause : ProblemError → GeometryError
  | direction cause => cause
  | constraint _ cause => cause

/-- The whole text: the part, and what is wrong with it. -/
def message (e : ProblemError) : String := e.context ++ ": " ++ e.cause.message

end ProblemError

namespace ProblemFile

/-! ## Problems -/

section Problems

variable {α : Type} [Scalar α]

/-- The half-spaces of the rows, which are counted from `index`. -/
def halfSpacesFrom (index : Nat) : List (ConstraintRow α) → Except ProblemError (List (AnyHalfSpace α))
  | [] => .ok []
  | row :: rows => do
    let h ← (AnyHalfSpace.ofInequality row.normal row.offset).mapError (.constraint index)
    return h :: (← halfSpacesFrom (index + 1) rows)

/-- The problem a file holds. -/
def toProblem (file : ProblemFile α) : Except ProblemError (Problem α) := do
  let direction ← (Vec.ofList file.direction).mapError .direction
  return ⟨← halfSpacesFrom 0 file.constraints, direction⟩

/-- The file of a problem. -/
def ofProblem (problem : Problem α) : ProblemFile α where
  direction := problem.direction.2.toList
  constraints := problem.halfSpaces.map fun h => ⟨h.2.boundary.normal.toList, h.2.boundary.offset⟩

end Problems

/-! ## Documents -/

section Documents

variable {α : Type} [Scalar α] [NumberText α]

/-- The document of a row. -/
def rowJson (row : ConstraintRow α) : Json :=
  Json.record [("normal", Json.ofScalars row.normal), ("offset", Json.ofScalar row.offset)]

/-- The document of a file. -/
def toJson (file : ProblemFile α) : Json :=
  Json.record [("direction", Json.ofScalars file.direction),
    ("constraints", .array (file.constraints.map rowJson))]

/-- The row that a document holds. -/
def rowOfJson? (value : Json) : Option (ConstraintRow α) := do
  match ← value.fields? ["normal", "offset"] with
  | [normal, offset] => return ⟨← normal.scalars?, ← offset.scalar?⟩
  | _ => none

/-- The file that a document holds. -/
def ofJson? (value : Json) : Option (ProblemFile α) := do
  match ← value.fields? ["direction", "constraints"] with
  | [direction, constraints] =>
    let rows ← constraints.items?
    return ⟨← direction.scalars?, ← rows.mapM rowOfJson?⟩
  | _ => none

end Documents

/-! ## Tables -/

/-- Why a table holds no constraints. -/
inductive TableError where
  | missingOffset
  /-- There is no column but the offsets. -/
  | missingNormals
  | emptyCell (column : String) (row : Nat)
  deriving DecidableEq, Repr

/-- The text for a table that is read from the file `name`. -/
def TableError.message (name : String) : TableError → String
  | missingOffset => name ++ ": missing `offset` column"
  | missingNormals => name ++ ": no normal columns"
  | emptyCell column row => "null in column `" ++ column ++ "` at row " ++ toString row

section Tables

variable {α : Type} {height : Nat}

/-- The values of a column that has no empty cell. -/
def filled (column : Column α height) : Except TableError (Vector α height) :=
  column.values.mapError fun (row : Fin height) => .emptyCell column.name row

/-- The file whose constraints are the rows of a table. The offsets are checked for empty cells first, then
the other columns in order. -/
def ofTable (direction : List α) (table : Table α) : Except TableError (ProblemFile α) :=
  match table.columns.find? (·.name == "offset") with
  | none => .error .missingOffset
  | some offset => do
    let offsets ← filled offset
    let normals ← (table.columns.filter (·.name != "offset")).mapM filled
    if normals.isEmpty then throw .missingNormals
    let rows := List.finRange table.height
    return ⟨direction, rows.map fun row => ⟨normals.map (·[row]), offsets[row]⟩⟩

end Tables

end ProblemFile

end LowDimLP
