import LowDimLP.Proofs.CommandLine.Reproducible
/-!
# What a run changes

A run that ends well and has an output leaves the artifact and its sidecar, two files in the same folder, and no
other file is touched. Without an output no file changes, nor does one when a stage fails before the saving
(`run_effect`). However a run ends, it changes no files but these two (`changed_of_run`).
-/

namespace LowDimLP.CommandLine

variable {α : Type} [Scalar α] [NumberText α] {env : Environment} {args : List String} {dir : Directory}
  {command : Command α}

theorem run_of_asked (asked : Command.ofArgs? args = some command) :
    run α env args dir = command.run env dir := by
  rw [run, asked]

/-- **What the command line may write.** A run that ends well leaves what the command makes at the path of its
output and the sidecar next to it, and all other files as they were. It leaves all files as they were if the command
has no output, if a stage of it fails, and whenever the run fails otherwise than in saving. -/
theorem run_effect (asked : Command.ofArgs? args = some command) :
    (∀ out, command.out? = some out → (run α env args dir).verdict.exitCode = 0 →
      ∃ artifact p held told, command.Makes env dir artifact p ∧ p.output = out ∧
        Published env dir (run α env args dir).directory artifact p held told) ∧
    (command.out? = none → (run α env args dir).directory = dir) ∧
    (∀ failure, command.Fails env dir failure → run α env args dir = ⟨.failed failure, dir⟩) ∧
    (∀ failure, (run α env args dir).verdict = .failed failure → (∀ cause, failure ≠ .save cause) →
      (run α env args dir).directory = dir) := by
  rw [run_of_asked asked]
  refine ⟨fun out writes success => ?_, fun silent => ?_, fun _ fails => fails.run_eq, fun _ failed other => ?_⟩
  · obtain ⟨artifact, p, makes, output, published⟩ := Command.makes_of_success writes success
    obtain ⟨held, told, pair⟩ := publish_effect published
    exact ⟨artifact, p, held, told, makes, output, pair⟩
  · rcases command.run_cases env dir with ⟨_, fails⟩ | ⟨_, _, makes⟩ | ⟨-, _, -, ran⟩
    · rw [fails.run_eq]
    · cases silent.symm.trans makes.out?_eq
    · rw [ran]
  · rcases command.run_cases env dir with ⟨_, fails⟩ | ⟨_, _, makes⟩ | ⟨-, _, -, ran⟩
    · rw [fails.run_eq]
    · rw [makes.run_eq] at failed
      obtain ⟨cause, same⟩ := failure_publish failed
      exact absurd same (other cause)
    · rw [ran]

/-- The report of a half-line is written next to its file; a solve of a file that is missing, with the file of the
half-line for its output, leaves that file. -/
theorem run_effect_halfLine :
    (∃ later artifact p, run AlgebraicReal ⟨none, 0⟩
        ["solve", "--input", "p.json", "--seed", "0", "--out", "r.json"] Writing.halfLineDirectory = ⟨.silent, later⟩ ∧
      Published ⟨none, 0⟩ Writing.halfLineDirectory later artifact p ["r.json".toList] ["r.provenance.json".toList]) ∧
    run AlgebraicReal ⟨none, 0⟩ ["solve", "--input", "q.json", "--out", "p.json"] Writing.halfLineDirectory =
      ⟨.failed (.load (.reading "q.json")), Writing.halfLineDirectory⟩ := by
  constructor
  · obtain ⟨later, -, ran⟩ := Writing.run_halfLine (c := 1) Writing.ofArgs?_halfLine rfl
    obtain ⟨artifact, p, held, told, -, output, pair⟩ :=
      (run_effect Writing.ofArgs?_halfLine).1 "r.json" rfl (by rw [ran]; rfl)
    rw [ran] at pair
    have artifact_at : later.locate? "r.json" = some held := output ▸ pair.artifact_at
    have sidecar_at : later.locate? (Provenance.sidecarPath "r.json") = some told := output ▸ pair.sidecar_at
    have sidecar : Provenance.sidecarPath "r.json" = "r.provenance.json" := by decide
    rw [sidecar] at sidecar_at
    have held_eq : ["r.json".toList] = held := Option.some.inj artifact_at
    have told_eq : ["r.provenance.json".toList] = told := Option.some.inj sidecar_at
    exact ⟨later, artifact, p, ran, held_eq ▸ told_eq ▸ pair⟩
  · have asked : Command.ofArgs? ["solve", "--input", "q.json", "--out", "p.json"] =
        some (.solve (⟨"q.json", none, none, none, some "p.json"⟩ : SolveOptions AlgebraicReal)) := by
      rw [Command.ofArgs?, SolveDraft.blank, read_input _ (by decide), read_out _ (by decide)]
      rfl
    have json : Path.extension? "q.json" = some "json" := by decide
    have missing : ProblemFile.load (α := AlgebraicReal) Writing.halfLineDirectory "q.json" none =
        .error (.reading "q.json") := by
      rw [ProblemFile.load, if_pos json]
      rfl
    exact (run_effect asked).2.2.1 _ (.load missing)

/-- However a run ends, it has changed no files but the artifact and its sidecar. -/
theorem changed_of_run {place : Place}
    (changed : (run α env args dir).directory.file? place ≠ dir.file? place) :
    ∃ (command : Command α) (out : String), Command.ofArgs? args = some command ∧ command.out? = some out ∧
      ((run α env args dir).directory.locate? out = some place ∨
        (run α env args dir).directory.locate? (Provenance.sidecarPath out) = some place) := by
  cases asked : (Command.ofArgs? args : Option (Command α)) with
  | none =>
    have same : (run α env args dir).directory = dir := by rw [run, asked]
    exact absurd (by rw [same]) changed
  | some command =>
    rw [run_of_asked asked] at changed ⊢
    rcases command.run_cases env dir with ⟨_, fails⟩ | ⟨artifact, p, makes⟩ | ⟨-, _, -, ran⟩
    · exact absurd (by rw [fails.run_eq]) changed
    · rw [makes.run_eq] at changed ⊢
      exact ⟨command, p.output, rfl, makes.out?_eq, changed_of_publish changed⟩
    · exact absurd (by rw [ran]) changed

end LowDimLP.CommandLine
