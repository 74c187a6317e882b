import LowDimLP.Proofs.AlgebraicReals
import LowDimLP.Proofs.LinearProgram
import LowDimLP.Proofs.CommandLine.Publishing
import LowDimLP.Proofs.ProblemFile.Documents
/-!
# Problem files round-trip

A document of a problem file is read back as the file (`ofDocument?_pretty`), if its numbers are finite. A file
of a problem, whose normals have length one already, builds every half-space again, because nothing is left to
rescale (`toProblem_ofProblem`). So a problem that is published as a file is loaded again as it was
(`load_published`), whatever the dimensions of its half-spaces.
-/

namespace LowDimLP

/-- The coordinates of a vector that has some make the vector again. -/
theorem Vec.ofList_toList {α : Type} {n : Nat} (v : Vec α n) (some_coordinate : n ≠ 0) :
    Vec.ofList v.toList = .ok ⟨n, v⟩ := by
  obtain ⟨⟨row, size⟩⟩ := v
  subst size
  have nonempty : row.toList.isEmpty = false := by
    cases entries : row.toList with
    | nil => exact absurd (congrArg List.length entries) some_coordinate
    | cons => rfl
  show (if row.toList.isEmpty then _ else _) = _
  rw [nonempty]
  rfl

namespace ProblemFile

section Documents

variable {α : Type} [Scalar α] [NumberText α]

variable [LawfulNumberText α]

/-- A document with finite numbers is read back as the file it was written from. -/
theorem ofDocument?_pretty {file : ProblemFile α} (finite : Finite file) :
    ofDocument? file.toJson.pretty = some file := by
  rw [ofDocument?, (wellWritten_toJson file).parse?_pretty, Option.bind_eq_bind, Option.bind_some,
    ofJson?_of_spelledBy (spelledBy_toJson finite)]

end Documents

section Exact

variable {α : Type} [ExactScalar α]

/-- A built half-space has a dimension. -/
theorem dim_ne_zero {n : Nat} {h : HalfSpace α n} (normalised : h.Normalised) : n ≠ 0 := by
  rintro rfl
  have unit := normalised.unit
  rw [Vec.dot_eq_sum, Finset.univ_eq_empty, Finset.sum_empty] at unit
  exact zero_ne_one unit

/-- The row of a normalised half-space builds the half-space again. -/
theorem ofInequality_row {h : AnyHalfSpace α} (normalised : h.2.Normalised) :
    AnyHalfSpace.ofInequality h.2.boundary.normal.toList h.2.boundary.offset = .ok h := by
  rw [AnyHalfSpace.ofInequality, Vec.ofList_toList _ (dim_ne_zero normalised)]
  show (HalfSpace.ofInequality h.2.boundary.normal h.2.boundary.offset).bind
    (fun g => .ok (⟨h.1, g⟩ : AnyHalfSpace α)) = _
  rw [HalfSpace.ofInequality_of_normalised normalised]
  rfl

theorem halfSpacesFrom_rows {halfSpaces : List (AnyHalfSpace α)} (normalised : ∀ h ∈ halfSpaces, h.2.Normalised)
    (index : Nat) : halfSpacesFrom index (halfSpaces.map fun h =>
      ⟨h.2.boundary.normal.toList, h.2.boundary.offset⟩) = .ok halfSpaces := by
  induction halfSpaces generalizing index with
  | nil => rfl
  | cons h halfSpaces ih =>
    rw [List.map_cons, halfSpacesFrom, ofInequality_row (normalised h List.mem_cons_self)]
    show (halfSpacesFrom (index + 1) _).bind (fun others => .ok (h :: others)) = _
    rw [ih (fun g hg => normalised g (List.mem_cons_of_mem _ hg))]
    rfl

/-- The file of a problem with normalised half-spaces holds the problem. -/
theorem toProblem_ofProblem {problem : Problem α} (normalised : ∀ h ∈ problem.halfSpaces, h.2.Normalised)
    (some_coordinate : problem.direction.1 ≠ 0) : (ofProblem problem).toProblem = .ok problem := by
  obtain ⟨halfSpaces, n, direction⟩ := problem
  rw [toProblem, ofProblem, Vec.ofList_toList direction some_coordinate]
  show (halfSpacesFrom 0 _).bind (fun read => .ok (⟨read, ⟨n, direction⟩⟩ : Problem α)) = _
  rw [halfSpacesFrom_rows normalised]
  rfl

theorem finite_ofProblem (problem : Problem α) : Finite (ofProblem problem) where
  direction _ _ := ExactScalar.isFinite_eq_true _
  constraints _ _ := ⟨fun _ _ => ExactScalar.isFinite_eq_true _, ExactScalar.isFinite_eq_true _⟩

variable [NumberText α] [LawfulNumberText α]

/-- **Problem files round-trip.** A problem whose half-spaces are built from inequalities, and whose direction
has a coordinate, is loaded again from the file that it is published as. -/
theorem load_published {problem : Problem α} {env : CommandLine.Environment} {dir later : Directory}
    {p : Provenance}
    (built : ∀ h ∈ problem.halfSpaces, ∃ normal offset, HalfSpace.ofInequality normal offset = .ok h.2)
    (some_coordinate : problem.direction.1 ≠ 0) (document : Path.extension? p.output = some "json")
    (published : CommandLine.publish env dir (ofProblem problem).toJson p = ⟨.silent, later⟩) :
    ∃ file, load later p.output none = .ok file ∧ file.toProblem = .ok problem := by
  have normalised : ∀ h ∈ problem.halfSpaces, h.2.Normalised := fun h hh =>
    HalfSpace.normalised_iff_built.mpr (built h hh)
  refine ⟨ofProblem problem, ?_, toProblem_ofProblem normalised some_coordinate⟩
  rw [load, if_pos document, loadDocument, (CommandLine.publish_silent published).1]
  dsimp only
  rw [ofDocument?_pretty (finite_ofProblem problem)]
  rfl

end Exact

/-- The half-line up to one. -/
noncomputable def halfLine : HalfSpace AlgebraicReal 1 := .ofUnit ⟨#v[1]⟩ 1

theorem ofInequality_halfLine : HalfSpace.ofInequality (⟨#v[1]⟩ : Vec AlgebraicReal 1) 1 = .ok halfLine :=
  HalfSpace.ofInequality_unit (by simp [Vec.dot_line, Vec.coord, Coords.get]) 1

/-- A half-line and a half-plane, with a direction in the plane. -/
noncomputable def mixedProblem : Problem AlgebraicReal :=
  ⟨[⟨1, halfLine⟩, ⟨2, .ofUnit ⟨#v[0, 1]⟩ 1⟩], ⟨2, ⟨#v[1, 0]⟩⟩⟩

theorem mixedProblem_built : ∀ h ∈ mixedProblem.halfSpaces,
    ∃ normal offset, HalfSpace.ofInequality normal offset = .ok h.2 := by
  refine List.forall_mem_cons.mpr ⟨⟨_, _, ofInequality_halfLine⟩,
    List.forall_mem_singleton.mpr ⟨_, _, HalfSpace.ofInequality_unit ?_ _⟩⟩
  simp [Vec.dot_eq_sum, Vec.coord, Coords.get]

theorem load_published_mixedProblem : ∃ later,
    (∀ h ∈ mixedProblem.halfSpaces, ∃ normal offset, HalfSpace.ofInequality normal offset = .ok h.2) ∧
    mixedProblem.direction.1 ≠ 0 ∧ Path.extension? "p.json" = some "json" ∧
    CommandLine.publish ⟨none, 0⟩ Directory.empty (ofProblem mixedProblem).toJson ⟨"gen", 0, .null, "p.json"⟩ =
      ⟨.silent, later⟩ ∧
    ∃ file, load later "p.json" none = .ok file ∧ file.toProblem = .ok mixedProblem := by
  obtain ⟨later, published⟩ : ∃ later, CommandLine.publish ⟨none, 0⟩ Directory.empty
      (ofProblem mixedProblem).toJson ⟨"gen", 0, .null, "p.json"⟩ = ⟨.silent, later⟩ :=
    ⟨_, CommandLine.publish_silent_iff.mpr ⟨_, rfl, rfl⟩⟩
  exact ⟨later, mixedProblem_built, by decide, by decide, published,
    load_published mixedProblem_built (by decide) (by decide) published⟩

end ProblemFile

end LowDimLP
