import LowDimLP.CommandLine.Command
import LowDimLP.Json.Printer
import LowDimLP.ProblemFile.Load
import LowDimLP.Provenance
import LowDimLP.Report
/-!
# Running commands

A run takes a command line and the files it starts with to a verdict and the files it leaves. A command
writes only after everything else has succeeded: first the artifact, then the artifact's sidecar. Without an
output, `solve` prints its report and no file changes.
-/

namespace LowDimLP

namespace CommandLine

/-- What a run takes from its surroundings. -/
structure Environment where
  /-- The revision of the code. -/
  revision : Option String
  /-- The seed of a solve that is given none. -/
  freshSeed : UInt64

/-- Why a command fails. -/
inductive Failure where
  | load (cause : LoadError)
  | problem (cause : ProblemError)
  | solver (cause : SolverError)
  | generator (cause : GeometryError)
  /-- The generator drew too many words without success. -/
  | exhausted
  | save (cause : SaveError)
  deriving DecidableEq, Repr

/-- What is told of a failure: its outermost context. -/
def Failure.message : Failure → String
  | load cause => cause.message
  | problem cause => cause.context
  | solver cause => cause.message
  | generator cause => cause.message
  | exhausted => "no instance found"
  | save cause => cause.message

/-- How a run ends. -/
inductive Verdict where
  /-- Success with nothing to show. -/
  | silent
  | printed (document : Bytes)
  | failed (failure : Failure)
  /-- The command line is not well-formed. -/
  | misused
  deriving DecidableEq, Repr

/-- The exit code of a verdict. -/
def Verdict.exitCode : Verdict → Nat
  | silent => 0
  | printed _ => 0
  | failed _ => 1
  | misused => 2

/-- The verdict on a run, and the files after it. -/
structure Outcome where
  verdict : Verdict
  directory : Directory

/-- Writes an artifact and its sidecar. -/
def publish (env : Environment) (dir : Directory) (artifact : Json) (p : Provenance) : Outcome :=
  match dir.save p.output artifact.pretty with
  | .error cause => ⟨.failed (.save cause), dir⟩
  | .ok dir =>
    match dir.save (Provenance.sidecarPath p.output) (p.toJson env.revision).pretty with
    | .error cause => ⟨.failed (.save cause), dir⟩
    | .ok dir => ⟨.silent, dir⟩

variable {α : Type} [Scalar α] [NumberText α]

/-- The tolerances of a solve. -/
def SolveOptions.tolerance (options : SolveOptions α) : Tolerance α :=
  let standard : Tolerance α := Tolerance.standard
  { standard with feas := options.slack.getD standard.feas }

/-- The problem that a solve is about, with its report. -/
def SolveOptions.report (options : SolveOptions α) (dir : Directory) (seed : UInt64) :
    Except Failure (Problem α × Report α) := do
  let file ← (ProblemFile.load dir options.input options.direction).mapError .load
  let problem ← file.toProblem.mapError .problem
  let report ← (Report.ofProblem problem options.tolerance seed).mapError .solver
  return (problem, report)

/-- The parameters that are recorded of a solve. -/
def SolveOptions.params (options : SolveOptions α) (problem : Problem α) : Json :=
  Json.record [("input", Json.ofString options.input), ("dim", Json.ofNat problem.direction.1),
    ("constraints", Json.ofNat problem.halfSpaces.length),
    ("eps_det", Json.ofScalar options.tolerance.det), ("eps_feas", Json.ofScalar options.tolerance.feas)]

/-- Runs `solve`. -/
def SolveOptions.run (options : SolveOptions α) (env : Environment) (dir : Directory) : Outcome :=
  let seed := options.seed.getD env.freshSeed
  match options.report dir seed with
  | .error failure => ⟨.failed failure, dir⟩
  | .ok (problem, report) =>
    match options.out with
    | none => ⟨.printed report.toJson.pretty, dir⟩
    | some out => publish env dir report.toJson ⟨"solve", seed, options.params problem, out⟩

/-- The shape of the instance that `gen` writes. -/
def GenOptions.shape (options : GenOptions) : RandomProblem.Shape α :=
  let standard : RandomProblem.Shape α := RandomProblem.Shape.standard
  { standard with dim := options.dim, count := options.count }

/-- The instance that `gen` writes. -/
def GenOptions.problem (options : GenOptions) : Except Failure (Problem α) :=
  match RandomProblem.ofToken options.shape options.token with
  | none => .error .exhausted
  | some result => result.mapError .generator

/-- The parameters that are recorded of `gen`. -/
def GenOptions.params (α : Type) [Scalar α] [NumberText α] (options : GenOptions) : Json :=
  let shape : RandomProblem.Shape α := options.shape
  Json.record [("dim", Json.ofNat shape.dim), ("count", Json.ofNat shape.count),
    ("index", Json.ofNat options.token.index.toNat), ("radius_jitter", Json.ofScalar shape.radiusJitter),
    ("box_half_width", Json.ofScalar shape.boxHalfWidth)]

/-- Runs `gen`. -/
def GenOptions.run (α : Type) [Scalar α] [NumberText α] (options : GenOptions) (env : Environment)
    (dir : Directory) : Outcome :=
  match (options.problem : Except Failure (Problem α)) with
  | .error failure => ⟨.failed failure, dir⟩
  | .ok problem =>
    publish env dir (ProblemFile.ofProblem problem).toJson
      ⟨"gen", options.token.seed, options.params α, options.out⟩

/-- Runs a command. -/
def Command.run (command : Command α) (env : Environment) (dir : Directory) : Outcome :=
  match command with
  | solve options => options.run env dir
  | gen options => options.run α env dir
  | report => ⟨.printed (Provenance.header env.revision).pretty, dir⟩
  | help => ⟨.silent, dir⟩

/-- Runs a command line with coordinates of type `α`. -/
def run (α : Type) [Scalar α] [NumberText α] (env : Environment) (args : List String) (dir : Directory) :
    Outcome :=
  match (Command.ofArgs? args : Option (Command α)) with
  | some command => command.run env dir
  | none => ⟨.misused, dir⟩

end CommandLine

end LowDimLP
