import LowDimLP.CommandLine.Run
import LowDimLP.Proofs.Files.Saving
/-!
# Published artifacts

An artifact and its sidecar have different names in the same folder, so a command that has published both leaves
both, and nothing else is touched (`publish_effect`). A command comes to publish only when all its stages have
succeeded: it fails at one of them (`Command.Fails`), it publishes what it makes (`Command.Makes`), or it has nothing
to write (`Command.run_cases`).
-/

namespace LowDimLP.CommandLine

variable {env : Environment} {dir later : Directory}

section Publishing

variable {artifact : Json} {p : Provenance}

/-- Publishing is silent when both files are saved, the artifact first. -/
theorem publish_silent_iff : publish env dir artifact p = ⟨.silent, later⟩ ↔
    ∃ between, dir.save p.output artifact.pretty = .ok between ∧
      between.save (Provenance.sidecarPath p.output) (p.toJson env.revision).pretty = .ok later := by
  rw [publish]
  constructor
  · intro published
    split at published
    · cases published
    · next between first =>
      split at published
      · cases published
      · next second =>
        cases published
        exact ⟨between, first, second⟩
  · intro ⟨between, first, second⟩
    rw [first]
    dsimp only
    rw [second]

/-- The path of a sidecar leads into the folder of the artifact. -/
theorem locate?_sidecarPath {path : String} {name : List Char} {outer : Place}
    (located : dir.locate? path = some (name :: outer)) :
    dir.locate? (Provenance.sidecarPath path) = some (Provenance.sidecarName name :: outer) := by
  obtain ⟨_, _, same, last, proper, inner, -⟩ := Directory.locate?_eq_some_iff.mp located
  cases same
  have plain := Provenance.not_slash_mem_sidecarName (Path.not_slash_mem_of_mem_split (List.mem_of_getLast? last))
  obtain ⟨proper_sidecar, inner_sidecar⟩ := Provenance.sidecarName_proper name
  rw [Provenance.sidecarPath_eq (Path.fileName?_of_lastSegment? last proper inner)]
  generalize Provenance.sidecarName name = sidecar at plain proper_sidecar inner_sidecar ⊢
  have toList : (String.ofList sidecar).toList = sidecar := String.toList_ofList
  rw [← toList] at plain proper_sidecar inner_sidecar
  rw [Directory.locate?_withFileName located plain proper_sidecar inner_sidecar, toList]

/-- The artifact is at the one place and its sidecar at the other one, in the same folder, and all other files are
as they were. -/
structure Published (env : Environment) (dir later : Directory) (artifact : Json) (p : Provenance)
    (held told : Place) : Prop where
  artifact_at : later.locate? p.output = some held
  sidecar_at : later.locate? (Provenance.sidecarPath p.output) = some told
  artifact_held : later.file? held = some artifact.pretty
  sidecar_held : later.file? told = some (p.toJson env.revision).pretty
  beside : held.tail = told.tail
  apart : held ≠ told
  others : ∀ place, place ≠ held → place ≠ told → later.file? place = dir.file? place

/-- What a command publishes without a word is there afterwards, and so is its sidecar. -/
theorem publish_effect (published : publish env dir artifact p = ⟨.silent, later⟩) :
    ∃ held told, Published env dir later artifact p held told := by
  obtain ⟨between, first, second⟩ := publish_silent_iff.mp published
  obtain ⟨held, located, artifact_held, untouched, -⟩ := Directory.save_effect first
  obtain ⟨told, sidecar_at, sidecar_held, kept, keeps⟩ := Directory.save_effect second
  have artifact_at := Directory.locate?_mono keeps located
  obtain ⟨name, outer, rfl, -⟩ := Directory.locate?_eq_some_iff.mp artifact_at
  cases sidecar_at.symm.trans (locate?_sidecarPath artifact_at)
  have apart : name :: outer ≠ Provenance.sidecarName name :: outer := fun same =>
    Provenance.sidecarName_ne name (List.cons.inj same).1.symm
  refine ⟨name :: outer, _, artifact_at, sidecar_at, ?_, sidecar_held, rfl, apart, fun place elsewhere further => ?_⟩
  · rw [kept _ apart, artifact_held]
  · rw [kept place further, untouched place elsewhere]

/-- What has been published is read back. -/
theorem publish_silent (published : publish env dir artifact p = ⟨.silent, later⟩) :
    later.read? p.output = some artifact.pretty ∧
      later.read? (Provenance.sidecarPath p.output) = some (p.toJson env.revision).pretty := by
  obtain ⟨held, told, pair⟩ := publish_effect published
  rw [Directory.read?, Directory.read?, pair.artifact_at, pair.sidecar_at]
  exact ⟨pair.artifact_held, pair.sidecar_held⟩

theorem exitCode_publish (success : (publish env dir artifact p).verdict.exitCode = 0) :
    ∃ later, publish env dir artifact p = ⟨.silent, later⟩ := by
  rw [publish] at success ⊢
  split at success
  · cases success
  · next between first =>
    split at success
    · cases success
    · next later _ => exact ⟨later, rfl⟩

theorem failure_publish {failure : Failure} (failed : (publish env dir artifact p).verdict = .failed failure) :
    ∃ cause, failure = .save cause := by
  rw [publish] at failed
  split at failed
  · next cause _ => exact ⟨cause, (Verdict.failed.inj failed).symm⟩
  · split at failed
    · next cause _ => exact ⟨cause, (Verdict.failed.inj failed).symm⟩
    · cases failed

/-- However publishing ends, it has changed no files but the artifact and its sidecar. -/
theorem changed_of_publish {place : Place}
    (changed : (publish env dir artifact p).directory.file? place ≠ dir.file? place) :
    (publish env dir artifact p).directory.locate? p.output = some place ∨
      (publish env dir artifact p).directory.locate? (Provenance.sidecarPath p.output) = some place := by
  cases first : dir.save p.output artifact.pretty with
  | error cause =>
    have same : (publish env dir artifact p).directory = dir := by simp only [publish, first]
    exact absurd (by rw [same]) changed
  | ok between =>
    cases second : between.save (Provenance.sidecarPath p.output) (p.toJson env.revision).pretty with
    | error cause =>
      have half : (publish env dir artifact p).directory = between := by simp only [publish, first, second]
      obtain ⟨held, located, -, untouched, -⟩ := Directory.save_effect first
      rw [half] at changed ⊢
      exact .inl (located.trans (congrArg some (Decidable.byContradiction fun elsewhere =>
        changed (untouched place (Ne.symm elsewhere)))))
    | ok later =>
      obtain ⟨held, told, pair⟩ := publish_effect (publish_silent_iff.mpr ⟨between, first, second⟩)
      have both : (publish env dir artifact p).directory = later := by simp only [publish, first, second]
      rw [both] at changed ⊢
      rw [pair.artifact_at, pair.sidecar_at]
      by_cases artifact_there : held = place
      · exact .inl (congrArg some artifact_there)
      · refine .inr (congrArg some (Decidable.byContradiction fun elsewhere => ?_))
        exact changed (pair.others place (Ne.symm artifact_there) (Ne.symm elsewhere))

end Publishing

/-! ## Commands -/

namespace SolveOptions

variable {α : Type} [Scalar α] [NumberText α] {options : SolveOptions α} {seed : UInt64} {file : ProblemFile α}
  (loaded : ProblemFile.load dir options.input options.direction = .ok file)

include loaded

/-- What is told of a file that has been loaded. -/
theorem report_of_loaded : options.report dir seed = (file.toProblem.mapError .problem).bind fun problem =>
    ((Report.ofProblem problem options.tolerance seed).mapError .solver).map (Prod.mk problem) := by
  rw [SolveOptions.report, loaded]
  rfl

/-- What is told of the problem that a file holds. -/
theorem report_of_built {problem : Problem α} (built : file.toProblem = .ok problem) :
    options.report dir seed =
      ((Report.ofProblem problem options.tolerance seed).mapError .solver).map (Prod.mk problem) := by
  rw [report_of_loaded loaded, built]
  rfl

end SolveOptions

namespace Command

variable {α : Type} [Scalar α] [NumberText α]

/-- Where the command writes its artifact, if it writes one. -/
def out? : Command α → Option String
  | .solve options => options.out
  | .gen options => some options.out
  | .report => none
  | .help => none

/-- The command publishes the artifact with the provenance. -/
inductive Makes (env : Environment) (dir : Directory) : Command α → Json → Provenance → Prop where
  | solve {options : SolveOptions α} {out : String} {problem : Problem α} {report : Report α}
      (saved : options.out = some out)
      (solved : options.report dir (options.seed.getD env.freshSeed) = .ok (problem, report)) :
      Makes env dir (.solve options) report.toJson
        ⟨"solve", options.seed.getD env.freshSeed, options.params problem, out⟩
  | gen {options : GenOptions} {problem : Problem α} (generated : options.problem = .ok problem) :
      Makes env dir (.gen options) (ProblemFile.ofProblem problem).toJson
        ⟨"gen", options.token.seed, options.params α, options.out⟩

/-- A stage of the command fails: loading, building or solving the problem, or generating one. -/
inductive Fails (env : Environment) (dir : Directory) : Command α → Failure → Prop where
  | load {options : SolveOptions α} {cause : LoadError}
      (refused : ProblemFile.load dir options.input options.direction = .error cause) :
      Fails env dir (.solve options) (.load cause)
  | problem {options : SolveOptions α} {file : ProblemFile α} {cause : ProblemError}
      (loaded : ProblemFile.load dir options.input options.direction = .ok file)
      (refused : file.toProblem = .error cause) : Fails env dir (.solve options) (.problem cause)
  | solver {options : SolveOptions α} {file : ProblemFile α} {problem : Problem α} {cause : SolverError}
      (loaded : ProblemFile.load dir options.input options.direction = .ok file)
      (built : file.toProblem = .ok problem)
      (refused : Report.ofProblem problem options.tolerance (options.seed.getD env.freshSeed) = .error cause) :
      Fails env dir (.solve options) (.solver cause)
  | generator {options : GenOptions} {cause : GeometryError}
      (refused : RandomProblem.ofToken (options.shape : RandomProblem.Shape α) options.token =
        some (.error cause)) : Fails env dir (.gen options) (.generator cause)
  | exhausted {options : GenOptions}
      (exhausted : RandomProblem.ofToken (options.shape : RandomProblem.Shape α) options.token = none) :
      Fails env dir (.gen options) .exhausted

variable {command : Command α} {artifact : Json} {p : Provenance}

theorem Makes.out?_eq (makes : command.Makes env dir artifact p) : command.out? = some p.output := by
  cases makes with
  | solve saved => exact saved
  | gen => rfl

theorem Makes.run_eq (makes : command.Makes env dir artifact p) : command.run env dir = publish env dir artifact p := by
  cases makes with
  | solve saved solved => simp only [run, SolveOptions.run, solved, saved]
  | gen generated => simp only [run, GenOptions.run, generated]

theorem Fails.run_eq {failure : Failure} (fails : command.Fails env dir failure) :
    command.run env dir = ⟨.failed failure, dir⟩ := by
  cases fails with
  | load refused =>
    rw [run, SolveOptions.run, SolveOptions.report, refused]
    rfl
  | problem loaded refused =>
    rw [run, SolveOptions.run, SolveOptions.report_of_loaded loaded, refused]
    rfl
  | solver loaded built refused =>
    rw [run, SolveOptions.run, SolveOptions.report_of_built loaded built, refused]
    rfl
  | generator refused =>
    rw [run, GenOptions.run, GenOptions.problem, refused]
    rfl
  | exhausted none =>
    rw [run, GenOptions.run, GenOptions.problem, none]

/-- A stage of a solve fails, or all of them succeed. -/
theorem report_cases (options : SolveOptions α) (env : Environment) (dir : Directory) :
    (∃ failure, Fails env dir (.solve options) failure) ∨
      ∃ told, options.report dir (options.seed.getD env.freshSeed) = .ok told := by
  cases loaded : ProblemFile.load dir options.input options.direction with
  | error cause => exact .inl ⟨_, .load loaded⟩
  | ok file =>
    cases built : file.toProblem with
    | error cause => exact .inl ⟨_, .problem loaded built⟩
    | ok problem =>
      cases solved : Report.ofProblem problem options.tolerance (options.seed.getD env.freshSeed) with
      | error cause => exact .inl ⟨_, .solver loaded built solved⟩
      | ok report =>
        refine .inr ⟨(problem, report), ?_⟩
        rw [SolveOptions.report_of_built loaded built, solved]
        rfl

/-- A command fails at one of its stages, publishes what it makes, or has nothing to write. -/
theorem run_cases (command : Command α) (env : Environment) (dir : Directory) :
    (∃ failure, command.Fails env dir failure) ∨ (∃ artifact p, command.Makes env dir artifact p) ∨
      (command.out? = none ∧ ∃ verdict, verdict.exitCode = 0 ∧ command.run env dir = ⟨verdict, dir⟩) := by
  cases command with
  | solve options =>
    rcases report_cases options env dir with fails | ⟨⟨problem, report⟩, solved⟩
    · exact .inl fails
    · cases saved : options.out with
      | none =>
        refine .inr (.inr ⟨saved, .printed report.toJson.pretty, rfl, ?_⟩)
        simp only [run, SolveOptions.run, solved, saved]
      | some out => exact .inr (.inl ⟨_, _, .solve saved solved⟩)
  | gen options =>
    cases generated : RandomProblem.ofToken (options.shape : RandomProblem.Shape α) options.token with
    | none => exact .inl ⟨_, .exhausted generated⟩
    | some result =>
      cases result with
      | error cause => exact .inl ⟨_, .generator generated⟩
      | ok problem =>
        have made : (options.problem : Except Failure (Problem α)) = .ok problem := by
          rw [GenOptions.problem, generated]
          rfl
        exact .inr (.inl ⟨_, _, .gen made⟩)
  | report => exact .inr (.inr ⟨rfl, _, rfl, rfl⟩)
  | help => exact .inr (.inr ⟨rfl, _, rfl, rfl⟩)

/-- A command that ends well and writes an artifact has published what it makes. -/
theorem makes_of_success {out : String} (writes : command.out? = some out)
    (success : (command.run env dir).verdict.exitCode = 0) :
    ∃ artifact p, command.Makes env dir artifact p ∧ p.output = out ∧
      publish env dir artifact p = ⟨.silent, (command.run env dir).directory⟩ := by
  rcases command.run_cases env dir with ⟨failure, fails⟩ | ⟨artifact, p, makes⟩ | ⟨silent, -⟩
  · rw [fails.run_eq] at success
    cases success
  · rw [makes.run_eq] at success ⊢
    obtain ⟨later, published⟩ := exitCode_publish success
    refine ⟨artifact, p, makes, Option.some.inj (makes.out?_eq.symm.trans writes), ?_⟩
    rw [published]
  · cases silent.symm.trans writes

end Command

end LowDimLP.CommandLine
