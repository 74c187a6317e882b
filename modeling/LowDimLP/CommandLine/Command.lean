import LowDimLP.CommandLine.Options
import LowDimLP.Decimal.NumberText
import LowDimLP.RandomProblem
/-!
# Commands

A command line names a command and gives its options. `solve` solves a problem file, `gen` writes a random
problem, `report` tells what the program is, and `help` explains the others. An option stands at most once,
except `--direction`, whose values follow each other.
-/

namespace LowDimLP

namespace CommandLine

/-- The options of `solve`. -/
structure SolveOptions (α : Type) where
  input : String
  /-- The direction that replaces the file's, or that a table lacks. -/
  direction : Option (List α)
  seed : Option UInt64
  slack : Option α
  out : Option String

/-- The options of `gen`. -/
structure GenOptions where
  dim : Nat
  count : Nat
  token : ReplayToken
  out : String

/-- What the program is asked to do. -/
inductive Command (α : Type) where
  | solve (options : SolveOptions α)
  | gen (options : GenOptions)
  | report
  | help

/-! ## Values -/

/-- The number that a text of digits spells, with or without a plus, if it fits into 64 bits. -/
def word? (text : String) : Option Nat :=
  let bytes := Utf8.encode text
  let digits := if bytes.head? = some (byte '+') then bytes.tail else bytes
  let n := Literal.value (Literal.digits digits).1
  if digits.isEmpty || !digits.all isDigitByte || decide (UInt64.size ≤ n) then none else some n

/-- A seed or an index. -/
def word64? (text : String) : Option UInt64 := (word? text).map Nat.toUInt64

variable {α : Type} [NumberText α]

/-- A scalar. -/
def scalar? (text : String) : Option α := NumberText.ofText? (Utf8.encode text)

/-- The texts between commas; there is at least one. -/
def splitCommas : List Char → List (List Char)
  | [] => [[]]
  | c :: cs =>
    if c = ',' then [] :: splitCommas cs
    else
      match splitCommas cs with
      | text :: texts => (c :: text) :: texts
      | [] => [[c]]

/-- Scalars with commas between them. -/
def scalars? (text : String) : Option (List α) :=
  (splitCommas text.toList).mapM fun text => scalar? (String.ofList text)

/-! ## Options of the commands -/

/-- The options of `solve` as far as they are read. -/
structure SolveDraft (α : Type) where
  input : Option String
  direction : Option (List α)
  seed : Option UInt64
  slack : Option α
  out : Option String

/-- No option is read yet. -/
def SolveDraft.blank : SolveDraft α := ⟨none, none, none, none, none⟩

/-- The options of `gen` as far as they are read. -/
structure GenDraft where
  dim : Option Nat
  count : Option Nat
  seed : Option UInt64
  index : Option UInt64
  out : Option String

/-- No option is read yet. -/
def GenDraft.blank : GenDraft := ⟨none, none, none, none, none⟩

/-- How the options of `solve` are read. -/
def solveFields : List (Field (SolveDraft α)) :=
  [⟨"input", false, fun v d => (once d.input (some v)).map ({ d with input := · })⟩,
    ⟨"direction", true, fun v d =>
      (scalars? v).map fun xs => { d with direction := some (d.direction.getD [] ++ xs) }⟩,
    ⟨"seed", false, fun v d => (once d.seed (word64? v)).map ({ d with seed := · })⟩,
    ⟨"eps-feas", false, fun v d => (once d.slack (scalar? v)).map ({ d with slack := · })⟩,
    ⟨"out", false, fun v d => (once d.out (some v)).map ({ d with out := · })⟩]

/-- How the options of `gen` are read. -/
def genFields : List (Field GenDraft) :=
  [⟨"dim", false, fun v d => (once d.dim (word? v)).map ({ d with dim := · })⟩,
    ⟨"count", false, fun v d => (once d.count (word? v)).map ({ d with count := · })⟩,
    ⟨"seed", false, fun v d => (once d.seed (word64? v)).map ({ d with seed := · })⟩,
    ⟨"index", false, fun v d => (once d.index (word64? v)).map ({ d with index := · })⟩,
    ⟨"out", false, fun v d => (once d.out (some v)).map ({ d with out := · })⟩]

/-- The options of `solve`; the input must be named. -/
def SolveDraft.finish? (d : SolveDraft α) : Option (SolveOptions α) :=
  d.input.map fun input => ⟨input, d.direction, d.seed, d.slack, d.out⟩

/-- The options of `gen`; the output must be named. -/
def GenDraft.finish? (d : GenDraft) : Option GenOptions :=
  d.out.map fun out => ⟨d.dim.getD 2, d.count.getD 16, ⟨d.seed.getD 0, d.index.getD 0⟩, out⟩

/-! ## Command lines -/

/-- The command whose options are read into a record. -/
def Reading.command? {σ : Type} (finish : σ → Option (Command α)) : Reading σ → Option (Command α)
  | .options record => finish record
  | .help => some .help
  | .misuse => none

/-- The commands that help knows. -/
def commandNames : List String := ["solve", "gen", "report", "help"]

/-- The command that a command line asks for; none if it is not well-formed. -/
def Command.ofArgs? : List String → Option (Command α)
  | [] => none
  | "solve" :: args => (read solveFields .blank args).command? fun d => d.finish?.map .solve
  | "gen" :: args => (read genFields .blank args).command? fun d => d.finish?.map .gen
  | "report" :: args => (read ([] : List (Field Unit)) () args).command? fun _ => some .report
  | "help" :: args =>
    match args with
    | [] => some .help
    | [name] => if commandNames.contains name then some .help else none
    | _ => none
  | arg :: _ => if arg = "--help" ∨ isHelpLetter arg then some .help else none

end CommandLine

end LowDimLP
