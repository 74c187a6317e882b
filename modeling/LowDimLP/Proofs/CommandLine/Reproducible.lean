import LowDimLP.Proofs.ProblemFile.RoundTrip
import LowDimLP.Proofs.Solver.Soundness
import LowDimLP.Proofs.CommandLine.Reading
/-!
# What a sidecar tells of its artifact

A sidecar records the command, its seed and its parameters. All that a `gen` depends on is among them, and so is
what a `solve` depends on, but for two things: a direction that was given in place of the file's is not
recorded, and a slack that is no number is recorded as null. Apart from these, two runs on the same files whose
sidecars agree write the same artifact (`recorded_determines`).
-/

namespace LowDimLP.CommandLine

/-- The value that a file holds. -/
def contents? (dir : Directory) (path : String) : Option Json := (dir.read? path).bind Json.parse?

/-- The command, seed and parameters that the sidecar of an artifact records. -/
def recorded? (dir : Directory) (artifact : String) : Option (List Json) :=
  (contents? dir (Provenance.sidecarPath artifact)).bind (·.fields? ["command", "seed", "params"])

section Sidecars

theorem wellWritten_sidecar (revision : Option String) {p : Provenance} (params : p.params.WellWritten) :
    (p.toJson revision).WellWritten := by
  refine Json.wellWritten_record ?_
  simp only [Provenance.headerMembers, List.cons_append, List.nil_append, List.forall_mem_cons]
  refine ⟨Json.wellWritten_ofString _, Json.wellWritten_ofString _, Json.wellWritten_ofString _,
    Json.wellWritten_ofNat _, params, .array ?_, List.forall_mem_nil _⟩
  exact List.forall_mem_singleton.mpr (Json.wellWritten_ofString _)

theorem fields?_sidecar (revision : Option String) (p : Provenance) :
    (p.toJson revision).fields? ["command", "seed", "params"] =
      some [Json.ofString p.command, Json.ofNat p.seed.toNat, p.params] := by
  let fields := [("command", Json.ofString p.command), ("seed", Json.ofNat p.seed.toNat), ("params", p.params)]
  let members := Provenance.headerMembers revision ++ (fields ++ [("outputs", .array [Json.ofString p.output])])
  have among : ∀ field ∈ fields, field ∈ members := fun field hfield =>
    List.mem_append_right _ (List.mem_append_left _ hfield)
  have distinct : (members.map Prod.fst).Nodup :=
    show ["code_rev", "crate_version", "command", "seed", "params", "outputs"].Nodup by decide
  have shown : p.toJson revision = Json.record members := rfl
  rw [shown]
  exact Json.fields?_record members fields distinct among

/-- After a command has published, the artifact's file holds the artifact, and the sidecar's records its
provenance. -/
theorem published_contents {env : Environment} {dir later : Directory} {artifact : Json} {p : Provenance}
    (published : publish env dir artifact p = ⟨.silent, later⟩) (written : artifact.WellWritten)
    (params : p.params.WellWritten) :
    contents? later p.output = some artifact ∧
      recorded? later p.output = some [Json.ofString p.command, Json.ofNat p.seed.toNat, p.params] := by
  obtain ⟨first, second⟩ := publish_silent published
  constructor
  · rw [contents?, first, Option.bind_some, written.parse?_pretty]
  · rw [recorded?, contents?, second, Option.bind_some,
      (wellWritten_sidecar env.revision params).parse?_pretty, Option.bind_some, fields?_sidecar]

end Sidecars

variable {α : Type} [Scalar α] [NumberText α]

/-! ## What is not recorded -/

/-- The direction that a solve is given in place of the file's. -/
def Command.direction? : Command α → Option (List α)
  | .solve options => options.direction
  | _ => none

/-- The slack is a number, if one plays a part. -/
def Command.FiniteSlack : Command α → Prop
  | .solve options => Scalar.isFinite options.tolerance.feas = true
  | _ => True

/-! ## What is recorded -/

section Recorded

variable {env other : Environment} {dir : Directory}

/-- What a solve reports depends on its input, direction, tolerances and seed only. -/
theorem SolveOptions.report_congr {first second : SolveOptions α} (dir : Directory)
    (input : first.input = second.input) (direction : first.direction = second.direction)
    (tolerance : first.tolerance = second.tolerance) (seed : UInt64) : first.report dir seed = second.report dir seed := by
  simp only [SolveOptions.report, input, direction, tolerance]

/-- The instance of `gen` depends on its dimension, count and token only. -/
theorem GenOptions.problem_congr (α : Type) [Scalar α] {first second : GenOptions} (dim : first.dim = second.dim)
    (count : first.count = second.count) (token : first.token = second.token) :
    (first.problem : Except Failure (Problem α)) = second.problem := by
  simp only [GenOptions.problem, GenOptions.shape, dim, count, token]

/-- The parameters of `gen` tell its dimension, count and index. -/
theorem gen_params_injective {first second : GenOptions} (same : first.params α = second.params α) :
    first.dim = second.dim ∧ first.count = second.count ∧ first.token.index = second.token.index := by
  simp only [GenOptions.params, Json.record, List.map_cons, Json.object.injEq, List.cons.injEq,
    Prod.mk.injEq, true_and] at same
  obtain ⟨dim, count, index, -⟩ := same
  exact ⟨Json.ofNat_injective dim, Json.ofNat_injective count,
    UInt64.toNat_inj.mp (Json.ofNat_injective index)⟩

variable [DistinctNumberText α]

theorem wellWritten_report (report : Report α) : report.toJson.WellWritten := by
  refine Json.wellWritten_record ?_
  simp only [List.forall_mem_cons]
  exact ⟨Json.wellWritten_ofString _, Json.wellWritten_ofOption Json.wellWritten_ofScalars _,
    Json.wellWritten_ofOption Json.wellWritten_ofScalar _, Json.wellWritten_ofNat _, List.forall_mem_nil _⟩

theorem wellWritten_solve_params (options : SolveOptions α) (problem : Problem α) :
    (options.params problem).WellWritten := by
  refine Json.wellWritten_record ?_
  simp only [List.forall_mem_cons]
  exact ⟨Json.wellWritten_ofString _, Json.wellWritten_ofNat _, Json.wellWritten_ofNat _,
    Json.wellWritten_ofScalar _, Json.wellWritten_ofScalar _, List.forall_mem_nil _⟩

theorem wellWritten_gen_params (options : GenOptions) : (options.params α).WellWritten := by
  refine Json.wellWritten_record ?_
  simp only [List.forall_mem_cons]
  exact ⟨Json.wellWritten_ofNat _, Json.wellWritten_ofNat _, Json.wellWritten_ofNat _,
    Json.wellWritten_ofScalar _, Json.wellWritten_ofScalar _, List.forall_mem_nil _⟩

theorem Command.Makes.wellWritten {command : Command α} {artifact : Json} {p : Provenance}
    (makes : command.Makes env dir artifact p) : artifact.WellWritten ∧ p.params.WellWritten := by
  cases makes with
  | solve => exact ⟨wellWritten_report _, wellWritten_solve_params _ _⟩
  | gen => exact ⟨ProblemFile.wellWritten_toJson _, wellWritten_gen_params _⟩

/-- The parameters of a solve tell its input and, if the slack is a number, its tolerances. -/
theorem solve_params_injective {first second : SolveOptions α} {problem problem' : Problem α}
    (finite : Scalar.isFinite first.tolerance.feas = true)
    (same : first.params problem = second.params problem') :
    first.input = second.input ∧ first.tolerance = second.tolerance := by
  simp only [SolveOptions.params, Json.record, List.map_cons, Json.object.injEq, List.cons.injEq,
    Prod.mk.injEq, true_and, and_true] at same
  obtain ⟨input, -, -, -, slack⟩ := same
  refine ⟨Json.ofString_injective input, ?_⟩
  -- The other tolerance is the standard one in every solve.
  show Tolerance.mk Tolerance.standard.det first.tolerance.feas = ⟨Tolerance.standard.det, second.tolerance.feas⟩
  rw [Json.ofScalar_injective finite slack]

/-- Commands with the same record make the same artifact from the same files. -/
theorem Command.Makes.unique {first second : Command α} {artifact artifact' : Json} {p q : Provenance}
    (makes : first.Makes env dir artifact p) (makes' : second.Makes other dir artifact' q)
    (command : p.command = q.command) (seed : p.seed = q.seed) (params : p.params = q.params)
    (direction : first.direction? = second.direction?) (finite : first.FiniteSlack) : artifact = artifact' := by
  cases makes with
  | @solve options _ _ _ _ solved =>
    cases makes' with
    | @solve options' _ _ _ _ solved' =>
      obtain ⟨input, tolerance⟩ := solve_params_injective finite params
      have seeds : options.seed.getD env.freshSeed = options'.seed.getD other.freshSeed := seed
      have told := SolveOptions.report_congr dir input direction tolerance (options.seed.getD env.freshSeed)
      rw [solved, seeds, solved'] at told
      cases told
      rfl
    | gen => exact absurd (show "solve" = "gen" from command) (by decide)
  | gen generated =>
    cases makes' with
    | solve => exact absurd (show "gen" = "solve" from command) (by decide)
    | gen generated' =>
      obtain ⟨dim, count, index⟩ := gen_params_injective params
      have told := GenOptions.problem_congr α dim count (congrArg₂ ReplayToken.mk seed index)
      rw [generated, generated'] at told
      cases told
      rfl

end Recorded

/-! ## Runs that write -/

/-- A run of a command line that ends well and has written an artifact. -/
structure Writing (α : Type) [Scalar α] [NumberText α] (dir : Directory) where
  env : Environment
  args : List String
  command : Command α
  out : String
  asked : Command.ofArgs? args = some command
  writes : command.out? = some out
  success : (run α env args dir).verdict.exitCode = 0

namespace Writing

open ProblemFile (halfLine ofInequality_halfLine)

variable {dir : Directory}

/-- The files after the run. -/
def later (w : Writing α dir) : Directory := (run α w.env w.args dir).directory

/-- The artifact. -/
def artifact? (w : Writing α dir) : Option Json := contents? w.later w.out

/-- What the sidecar records. -/
def record? (w : Writing α dir) : Option (List Json) := recorded? w.later w.out

theorem makes (w : Writing α dir) : ∃ artifact p, w.command.Makes w.env dir artifact p ∧ p.output = w.out ∧
    publish w.env dir artifact p = ⟨.silent, w.later⟩ := by
  have ran : run α w.env w.args dir = w.command.run w.env dir := by rw [run, w.asked]
  rw [later, ran]
  exact Command.makes_of_success w.writes (ran ▸ w.success)

variable [DistinctNumberText α]

/-- The files of a run hold what its command makes. -/
theorem holds (w : Writing α dir) : ∃ artifact p, w.command.Makes w.env dir artifact p ∧
    w.artifact? = some artifact ∧
      w.record? = some [Json.ofString p.command, Json.ofNat p.seed.toNat, p.params] := by
  obtain ⟨artifact, p, makes, output, published⟩ := w.makes
  refine ⟨artifact, p, makes, ?_⟩
  rw [artifact?, record?, ← output]
  exact published_contents published makes.wellWritten.1 makes.wellWritten.2

/-- **A sidecar determines its artifact,** but for what it leaves out: of two runs on the same files that have
the same command, seed and parameters recorded, and that are given the same direction, if any, and a slack that
is a number, both artifacts can be read and are equal. -/
theorem recorded_determines (first second : Writing α dir) (recorded : first.record? = second.record?)
    (direction : first.command.direction? = second.command.direction?) (finite : first.command.FiniteSlack) :
    ∃ artifact, first.artifact? = some artifact ∧ second.artifact? = some artifact := by
  obtain ⟨artifact, p, makes, held, record⟩ := first.holds
  obtain ⟨artifact', q, makes', held', record'⟩ := second.holds
  rw [record, record'] at recorded
  simp only [Option.some.injEq, List.cons.injEq, and_true] at recorded
  obtain ⟨command, seed, params⟩ := recorded
  have equal := makes.unique makes' (Json.ofString_injective command)
    (UInt64.toNat_inj.mp (Json.ofNat_injective seed)) params direction finite
  exact ⟨artifact, held, held'.trans (congrArg some equal.symm)⟩

/-! ## A half-line

A half-space on the line that stands alone: every solve of it proposes its boundary point. -/

/-- The half-line, with a direction. -/
noncomputable def halfLineProblem (c : AlgebraicReal) : Problem AlgebraicReal := ⟨[⟨1, halfLine⟩], ⟨1, ⟨#v[c]⟩⟩⟩

/-- What is told of the half-line. -/
noncomputable def halfLineReport (c : AlgebraicReal) : Report AlgebraicReal := ⟨.ambiguous, some [1], some c, 0⟩

/-- The parameters of a solve of the half-line. -/
noncomputable def halfLineParams : Json :=
  SolveOptions.params ⟨"p.json", none, none, none, none⟩ (halfLineProblem 1)

/-- A directory with a file of the half-line. -/
noncomputable def halfLineDirectory : Directory :=
  Directory.empty.put ["p.json".toList] (ProblemFile.ofProblem (halfLineProblem 1)).toJson.pretty

theorem ofProblem_halfLine (c : AlgebraicReal) (tol : Tolerance AlgebraicReal) :
    Report.ofProblem (halfLineProblem c) tol 0 = .ok (halfLineReport c) := by
  have lone : (Level.solveLine tol [halfLine] ⟨#v[c]⟩ : Run ChaCha _).Ensures
      (· = .ambiguous halfLine.boundary.point) := Level.solveLine_lone halfLine
  obtain ⟨_, rest, run, rfl⟩ := lone (ChaCha.ofSeed 0)
  have level : Level.solve tol 0 [halfLine] ⟨#v[c]⟩ (ChaCha.ofSeed 0) =
      (.ok (.ambiguous halfLine.boundary.point), rest) := by
    rw [Level.solve, if_pos (Vec.isFinite_eq_true _)]
    exact run
  have objective : Vec.eval ⟨#v[c]⟩ halfLine.boundary.point = c := by
    simp [Vec.eval_line, halfLine, HalfSpace.ofUnit, Vec.coord, Point.coord, Coords.get]
  have point : halfLine.boundary.point.toList = [1] := by simp [halfLine, HalfSpace.ofUnit, Point.toList]
  show Except.map _ (solve ([halfLine].map (Sigma.mk 1)) ⟨1, ⟨#v[c]⟩⟩ tol (ChaCha.ofSeed 0)).1 = _
  rw [solve_eq_of_level (List.cons_ne_nil _ _) level]
  show Except.ok (Report.mk _ (some halfLine.boundary.point.toList)
    (some (Vec.eval ⟨#v[c]⟩ halfLine.boundary.point)) 0) = _
  rw [objective, point]
  rfl

theorem report_halfLine {options : SolveOptions AlgebraicReal} {c : AlgebraicReal}
    (input : options.input = "p.json") (given : options.direction.getD [1] = [c]) :
    options.report halfLineDirectory 0 = .ok (halfLineProblem c, halfLineReport c) := by
  have read : halfLineDirectory.read? "p.json" =
      some (ProblemFile.ofProblem (halfLineProblem 1)).toJson.pretty := rfl
  have document : Path.extension? "p.json" = some "json" := by decide
  have loaded : ProblemFile.load halfLineDirectory options.input options.direction =
      .ok (ProblemFile.ofProblem (halfLineProblem c)) := by
    rw [input]
    show (if _ then _ else _) = _
    rw [if_pos document, ProblemFile.loadDocument, read]
    dsimp only
    rw [ProblemFile.ofDocument?_pretty (ProblemFile.finite_ofProblem _)]
    show Except.ok (ProblemFile.mk (options.direction.getD [1]) _) = _
    rw [given]
    rfl
  have problem : (ProblemFile.ofProblem (halfLineProblem c)).toProblem = .ok (halfLineProblem c) :=
    ProblemFile.toProblem_ofProblem (List.forall_mem_singleton.mpr
      (HalfSpace.normalised_of_ofInequality ofInequality_halfLine)) one_ne_zero
  rw [SolveOptions.report_of_built loaded problem, ofProblem_halfLine]
  rfl

/-- Next to the file there is room for an artifact and its sidecar. -/
theorem publish_halfLine (artifact params : Json) : ∃ later,
    publish ⟨none, 0⟩ halfLineDirectory artifact ⟨"solve", 0, params, "r.json"⟩ = ⟨.silent, later⟩ := by
  have sidecar : Provenance.sidecarPath "r.json" = "r.provenance.json" := by decide
  -- Which bytes the files hold does not matter for where they are.
  rw [halfLineDirectory]
  generalize (ProblemFile.ofProblem (halfLineProblem 1)).toJson.pretty = document
  let dir := Directory.empty.put ["p.json".toList] document
  let held := dir.put ["r.json".toList] artifact.pretty
  let told := (Provenance.toJson none ⟨"solve", 0, params, "r.json"⟩).pretty
  have first : dir.save "r.json" artifact.pretty = .ok held := Directory.save_of_plain _ (by decide) rfl rfl
  have second : held.save (Provenance.sidecarPath "r.json") told =
      .ok (held.put ["r.provenance.json".toList] told) := by
    rw [sidecar]
    exact Directory.save_of_plain _ (by decide) rfl rfl
  exact ⟨_, publish_silent_iff.mpr ⟨held, first, second⟩⟩

/-- A solve of the half-line publishes its report. -/
theorem run_halfLine {args : List String} {direction : Option (List AlgebraicReal)} {c : AlgebraicReal}
    (asked : Command.ofArgs? args = some (.solve ⟨"p.json", direction, some 0, none, some "r.json"⟩))
    (given : direction.getD [1] = [c]) : ∃ later,
      publish ⟨none, 0⟩ halfLineDirectory (halfLineReport c).toJson ⟨"solve", 0, halfLineParams, "r.json"⟩ =
        ⟨.silent, later⟩ ∧ run AlgebraicReal ⟨none, 0⟩ args halfLineDirectory = ⟨.silent, later⟩ := by
  obtain ⟨later, published⟩ := publish_halfLine (halfLineReport c).toJson halfLineParams
  let options : SolveOptions AlgebraicReal := ⟨"p.json", direction, some 0, none, some "r.json"⟩
  have solved : options.report halfLineDirectory 0 = .ok (halfLineProblem c, halfLineReport c) :=
    report_halfLine rfl given
  refine ⟨later, published, ?_⟩
  rw [run, asked]
  exact (Command.Makes.solve rfl solved).run_eq.trans published

/-- A solve of the half-line writes its report, and records the same parameters in every direction. -/
theorem writes_halfLine {args : List String} {direction : Option (List AlgebraicReal)} {c : AlgebraicReal}
    (asked : Command.ofArgs? args = some (.solve ⟨"p.json", direction, some 0, none, some "r.json"⟩))
    (given : direction.getD [1] = [c]) : ∃ w : Writing AlgebraicReal halfLineDirectory, w.args = args ∧
      w.command = .solve ⟨"p.json", direction, some 0, none, some "r.json"⟩ ∧
        w.artifact? = some (halfLineReport c).toJson ∧
          w.record? = some [Json.ofString "solve", Json.ofNat 0, halfLineParams] := by
  obtain ⟨later, published, ran⟩ := run_halfLine asked given
  have success : (run AlgebraicReal ⟨none, 0⟩ args halfLineDirectory).verdict.exitCode = 0 := by
    rw [ran]
    rfl
  have contents := published_contents published (wellWritten_report _) (wellWritten_solve_params _ _)
  have after : (run AlgebraicReal ⟨none, 0⟩ args halfLineDirectory).directory = later := by rw [ran]
  rw [← after] at contents
  exact ⟨⟨⟨none, 0⟩, args, _, "r.json", asked, rfl, success⟩, rfl, rfl, contents⟩

theorem word64?_zero : word64? "0" = some 0 := by decide

/-- The command line that solves the half-line in the direction of its file. -/
theorem ofArgs?_halfLine :
    Command.ofArgs? (α := AlgebraicReal) ["solve", "--input", "p.json", "--seed", "0", "--out", "r.json"] =
      some (.solve ⟨"p.json", none, some 0, none, some "r.json"⟩) := by
  rw [Command.ofArgs?, SolveDraft.blank, read_input _ (by decide), read_seed _ word64?_zero (by decide),
    read_out _ (by decide)]
  rfl

theorem recorded_determines_halfLine : ∃ first second : Writing AlgebraicReal halfLineDirectory,
    first.args = ["solve", "--input", "p.json", "--seed", "0", "--out", "r.json"] ∧
    second.args = ["solve", "--out", "r.json", "--seed", "0", "--input", "p.json"] ∧
    first.record? = second.record? ∧ first.command.direction? = second.command.direction? ∧
    first.command.FiniteSlack ∧
    ∃ artifact, first.artifact? = some artifact ∧ second.artifact? = some artifact := by
  have turned : Command.ofArgs? ["solve", "--out", "r.json", "--seed", "0", "--input", "p.json"] =
      some (.solve (⟨"p.json", none, some 0, none, some "r.json"⟩ : SolveOptions AlgebraicReal)) := by
    rw [Command.ofArgs?, SolveDraft.blank, read_out _ (by decide), read_seed _ word64?_zero (by decide),
      read_input _ (by decide)]
    rfl
  obtain ⟨first, line, command, -, record⟩ := writes_halfLine (c := 1) ofArgs?_halfLine rfl
  obtain ⟨second, line', command', -, record'⟩ := writes_halfLine (c := 1) turned rfl
  have recorded : first.record? = second.record? := record.trans record'.symm
  have direction : first.command.direction? = second.command.direction? := by rw [command, command']
  have finite : first.command.FiniteSlack := by
    rw [command]
    exact ExactScalar.isFinite_eq_true _
  exact ⟨first, second, line, line', recorded, direction, finite,
    recorded_determines first second recorded direction finite⟩

/-- Without the condition on the directions it fails: a sidecar does not tell that a direction was given, and
the report in that direction has another objective. -/
theorem recorded_omits_direction : ∃ first second : Writing AlgebraicReal halfLineDirectory,
    first.args = ["solve", "--input", "p.json", "--seed", "0", "--out", "r.json"] ∧
    second.args = ["solve", "--input", "p.json", "--direction", "2", "--seed", "0", "--out", "r.json"] ∧
    first.record? = second.record? ∧ ∃ artifact artifact', first.artifact? = some artifact ∧
      second.artifact? = some artifact' ∧ artifact ≠ artifact' := by
  have two : scalars? (α := AlgebraicReal) "2" = some [2] := by
    have texts : splitCommas "2".toList = [['2']] := by decide
    have bytes : Utf8.encode "2" = [byte '2'] := by decide
    rw [scalars?, texts, List.mapM_cons, List.mapM_nil, scalar?]
    show Option.bind (NumberText.ofText? (Utf8.encode "2")) _ = _
    rw [bytes]
    show some [((2 : ℕ) : AlgebraicReal)] = _
    rw [Nat.cast_ofNat]
  have directed :
      Command.ofArgs? ["solve", "--input", "p.json", "--direction", "2", "--seed", "0", "--out", "r.json"] =
        some (.solve (⟨"p.json", some [2], some 0, none, some "r.json"⟩ : SolveOptions AlgebraicReal)) := by
    rw [Command.ofArgs?, SolveDraft.blank, read_input _ (by decide), read_direction _ two,
      read_seed _ word64?_zero (by decide), read_out _ (by decide)]
    rfl
  obtain ⟨first, line, -, held, record⟩ := writes_halfLine (c := 1) ofArgs?_halfLine rfl
  obtain ⟨second, line', -, held', record'⟩ := writes_halfLine (c := 2) directed rfl
  refine ⟨first, second, line, line', record.trans record'.symm, _, _, held, held', fun same => ?_⟩
  simp only [Report.toJson, Json.record, List.map_cons, Json.object.injEq, List.cons.injEq, Prod.mk.injEq,
    true_and, and_true] at same
  have objectives : (1 : AlgebraicReal) = 2 :=
    Json.ofScalar_injective (ExactScalar.isFinite_eq_true _) same.2.2.1
  norm_num at objectives

end Writing

end LowDimLP.CommandLine
