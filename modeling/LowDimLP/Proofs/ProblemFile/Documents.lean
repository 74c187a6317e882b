import LowDimLP.ProblemFile.Load
import LowDimLP.Proofs.Json.Records
/-!
# Documents of problem files

A document spells a file if it is a record of the file's direction and of its rows, in order, and each of its
numbers is read as the file's. How numbers are written, in which order the fields stand and what else the records
hold does not matter: what a document spells is what is read from it (`ofJson?_of_spelledBy`). A file with finite
numbers is spelled by the document that is written of it (`spelledBy_toJson`).
-/

namespace LowDimLP

variable {α : Type} [NumberText α]

/-- The scalar is read from the value. -/
def Json.Spells (value : Json) (x : α) : Prop := value.scalar? = some x

theorem Json.scalars?_of_spells {items : List Json} {xs : List α}
    (spelled : List.Forall₂ Json.Spells items xs) : (Json.array items).scalars? = some xs :=
  mapM_eq_some_iff.mpr spelled

/-- The value is a record of the row. -/
def ConstraintRow.SpelledBy (row : ConstraintRow α) (value : Json) : Prop :=
  ∃ normal offset, value.HasFields [("normal", .array normal), ("offset", offset)] ∧
    List.Forall₂ Json.Spells normal row.normal ∧ offset.Spells row.offset

namespace ProblemFile

/-- The value is a record of the file. -/
def SpelledBy (file : ProblemFile α) (value : Json) : Prop :=
  ∃ direction constraints,
    value.HasFields [("direction", .array direction), ("constraints", .array constraints)] ∧
    List.Forall₂ Json.Spells direction file.direction ∧
    List.Forall₂ (fun item row => row.SpelledBy item) constraints file.constraints

theorem rowOfJson?_of_spelledBy {row : ConstraintRow α} {value : Json} (spelled : row.SpelledBy value) :
    rowOfJson? value = some row := by
  obtain ⟨normal, offset, has, coordinates, bound⟩ := spelled
  have read : value.fields? ["normal", "offset"] = some [.array normal, offset] := has.fields?_eq
  have last : offset.scalar? = some row.offset := bound
  simp only [rowOfJson?, read, Option.bind_eq_bind, Option.bind_some, Json.scalars?_of_spells coordinates, last]
  rfl

/-- What a document spells is read from it. -/
theorem ofJson?_of_spelledBy {file : ProblemFile α} {value : Json} (spelled : file.SpelledBy value) :
    ofJson? value = some file := by
  obtain ⟨direction, constraints, has, coordinates, each⟩ := spelled
  have read : value.fields? ["direction", "constraints"] = some [.array direction, .array constraints] :=
    has.fields?_eq
  have rows : constraints.mapM rowOfJson? = some file.constraints :=
    mapM_eq_some_iff.mpr (each.imp fun _ _ => rowOfJson?_of_spelledBy)
  simp only [ofJson?, read, Json.items?, Option.bind_eq_bind, Option.bind_some,
    Json.scalars?_of_spells coordinates, rows]
  rfl

section Written

variable [Scalar α]

section Distinct

variable [DistinctNumberText α]

theorem wellWritten_rowJson (row : ConstraintRow α) : (rowJson row).WellWritten := by
  refine Json.wellWritten_record (List.forall_mem_cons.mpr ⟨Json.wellWritten_ofScalars _, ?_⟩)
  exact List.forall_mem_cons.mpr ⟨Json.wellWritten_ofScalar _, List.forall_mem_nil _⟩

theorem wellWritten_toJson (file : ProblemFile α) : file.toJson.WellWritten := by
  refine Json.wellWritten_record (List.forall_mem_cons.mpr ⟨Json.wellWritten_ofScalars _, ?_⟩)
  refine List.forall_mem_cons.mpr ⟨.array fun item hitem => ?_, List.forall_mem_nil _⟩
  obtain ⟨row, -, rfl⟩ := List.mem_map.mp hitem
  exact wellWritten_rowJson row

end Distinct

/-- All numbers of the row are finite. -/
structure FiniteRow (row : ConstraintRow α) : Prop where
  normal : ∀ x ∈ row.normal, Scalar.isFinite x = true
  offset : Scalar.isFinite row.offset = true

/-- All numbers of the file are finite. -/
structure Finite (file : ProblemFile α) : Prop where
  direction : ∀ x ∈ file.direction, Scalar.isFinite x = true
  constraints : ∀ row ∈ file.constraints, FiniteRow row

variable [LawfulNumberText α]

theorem spells_ofScalars {xs : List α} (finite : ∀ x ∈ xs, Scalar.isFinite x = true) :
    List.Forall₂ Json.Spells (xs.map Json.ofScalar) xs := by
  rw [List.forall₂_map_left_iff, List.forall₂_same]
  exact fun x member => Json.scalar?_ofScalar (finite x member)

theorem spelledBy_rowJson {row : ConstraintRow α} (finite : FiniteRow row) : row.SpelledBy (rowJson row) :=
  ⟨row.normal.map Json.ofScalar, Json.ofScalar row.offset,
    Json.hasFields_record (show ["normal", "offset"].Nodup by decide), spells_ofScalars finite.normal,
    Json.scalar?_ofScalar finite.offset⟩

/-- The document of a file spells the file. -/
theorem spelledBy_toJson {file : ProblemFile α} (finite : Finite file) : file.SpelledBy file.toJson := by
  refine ⟨file.direction.map Json.ofScalar, file.constraints.map rowJson,
    Json.hasFields_record (show ["direction", "constraints"].Nodup by decide), spells_ofScalars finite.direction, ?_⟩
  rw [List.forall₂_map_left_iff, List.forall₂_same]
  exact fun row member => spelledBy_rowJson (finite.constraints row member)

end Written

end ProblemFile

end LowDimLP
