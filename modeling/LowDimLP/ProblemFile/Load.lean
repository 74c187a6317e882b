import LowDimLP.Files.Directory
import LowDimLP.Json.Reader
import LowDimLP.ProblemFile
import LowDimLP.Table.Reader
/-!
# Loading problem files

The extension of a file's name tells its form. A document holds a direction, which a given one replaces; a
table needs a given one, and that is checked before the file is looked for.
-/

namespace LowDimLP

/-- Why a problem file cannot be loaded. -/
inductive LoadError where
  | reading (path : String)
  | parsing (path : String)
  /-- A table was named without a direction. -/
  | missingDirection
  /-- The file is missing or holds no table. -/
  | noTable (path : String)
  | table (path : String) (cause : ProblemFile.TableError)
  | unsupported (path : String)
  deriving DecidableEq, Repr

def LoadError.message : LoadError → String
  | reading path => "reading " ++ path
  | parsing path => "parsing " ++ path
  | missingDirection => "--direction is required for CSV input"
  | noTable path => "reading table " ++ path
  | table path cause => cause.message path
  | unsupported path => "unsupported input " ++ path ++ " (expected .json or .csv)"

namespace ProblemFile

variable {α : Type} [Scalar α] [NumberText α]

/-- The file with another direction, if one is given. -/
def withDirection (file : ProblemFile α) (direction : Option (List α)) : ProblemFile α :=
  { file with direction := direction.getD file.direction }

/-- The problem file that a document holds. -/
def ofDocument? (document : Bytes) : Option (ProblemFile α) := do ofJson? (← Json.parse? document)

/-- Loads a document. -/
def loadDocument (dir : Directory) (path : String) (direction : Option (List α)) :
    Except LoadError (ProblemFile α) :=
  match dir.read? path with
  | none => .error (.reading path)
  | some document =>
    match ofDocument? document with
    | none => .error (.parsing path)
    | some file => .ok (file.withDirection direction)

/-- Loads a table. -/
def loadTable (dir : Directory) (path : String) (direction : List α) : Except LoadError (ProblemFile α) :=
  match (dir.read? path).bind Table.ofBytes? with
  | none => .error (.noTable path)
  | some table => (ofTable direction table).mapError (.table path)

/-- Loads the problem file at a path. -/
def load (dir : Directory) (path : String) (direction : Option (List α)) :
    Except LoadError (ProblemFile α) :=
  if Path.extension? path = some "json" then loadDocument dir path direction
  else if Path.extension? path = some "csv" then
    match direction with
    | none => .error .missingDirection
    | some direction => loadTable dir path direction
  else .error (.unsupported path)

end ProblemFile

end LowDimLP
