import Mathlib.Data.List.FinRange
import LowDimLP.ProblemFile.Load
import LowDimLP.Proofs.AlgebraicReals
import LowDimLP.Proofs.ProblemFile.Documents
/-!
# Tables and documents

A table is kept by columns and a document by rows. A table without empty cells is loaded as the file whose rows
are its rows, wherever the offsets stand among the columns, and so is every document that spells these rows. If a
cell is empty, loading fails at the first one, as the cells are searched: the offsets first, then the other columns
in their order, each from the top (`load_table_agrees`).
-/

namespace LowDimLP

/-! ## Cells -/

namespace Column

variable {α : Type} {height : Nat}

/-- The first empty cell of the column stands in the row. -/
structure FirstEmpty (column : Column α height) (row : Fin height) : Prop where
  empty : column.cells.get row = none
  before : ∀ earlier < row, column.cells.get earlier ≠ none

theorem firstEmpty_of_emptyRow? {column : Column α height} {row : Fin height}
    (found : column.emptyRow? = some row) : column.FirstEmpty row := by
  obtain ⟨empty, front, back, rows, passed⟩ := List.find?_eq_some_iff_append.mp found
  refine ⟨Option.isNone_iff_eq_none.mp empty, fun earlier less none => ?_⟩
  -- The rows stand in order, so an earlier one has been passed.
  have ordered := List.pairwise_lt_finRange height
  rw [rows, List.pairwise_append, List.pairwise_cons] at ordered
  have member : earlier ∈ front ++ row :: back := rows ▸ List.mem_finRange earlier
  rcases List.mem_append.mp member with before | after
  · simpa [none] using passed earlier before
  · rcases List.mem_cons.mp after with same | after
    · exact absurd same less.ne
    · exact absurd (ordered.2.1.1 earlier after) less.asymm

/-- A column holds a value in each row, or it is refused for its first empty cell. -/
theorem values_cases (column : Column α height) :
    (∃ value : Fin height → α, (∀ row, column.cells.get row = some (value row)) ∧
      column.values = .ok (Vector.ofFn value)) ∨
    ∃ row, column.FirstEmpty row ∧ column.values = .error row := by
  rw [values]
  split
  · next row found => exact .inr ⟨row, firstEmpty_of_emptyRow? found, rfl⟩
  · next full =>
    exact .inl ⟨fun row => (column.cells.get row).get (isSome_of_emptyRow?_eq_none full row),
      fun row => (Option.some_get _).symm, rfl⟩

end Column

/-! ## Tables -/

namespace Table

variable {α : Type}

/-- The columns that hold coordinates of the normals, in their order. -/
def coordinates (table : Table α) : List (Column α table.height) := table.columns.filter (·.name != "offset")

/-- The columns in the order in which they are searched for empty cells. -/
def scan (table : Table α) : List (Column α table.height) :=
  table.columns.filter (·.name == "offset") ++ table.coordinates

/-- The first empty cell, in the order of the search, stands in the column and the row. -/
def FirstEmpty (table : Table α) (column : Column α table.height) (row : Fin table.height) : Prop :=
  (∃ position, FirstAt (fun column => ∃ row, column.cells.get row = none) table.scan position column) ∧
    column.FirstEmpty row

/-- The file whose rows are those of the table, if `value` tells the cells by the names of the columns. -/
def rows (table : Table α) (direction : List α) (value : String → Fin table.height → α) : ProblemFile α :=
  ⟨direction, List.ofFn fun row => ⟨table.coordinates.map fun column => value column.name row, value "offset" row⟩⟩

/-! Which table a text holds. -/

section Reading

variable [Scalar α] [NumberText α]

/-- Cells are read one by one. -/
theorem readCells?_of_toList {height : Nat} {kind : Kind} {cells : Vector Bytes height}
    {values : Vector (Option α) height} (each : cells.toList.mapM kind.read? = some values.toList) :
    readCells? kind cells = some values := by
  have listed : Vector.toArray <$> cells.mapM kind.read? = some values.toArray := by
    rw [Vector.toArray_mapM, Array.mapM_eq_mapM_toList]
    show List.toArray <$> cells.toList.mapM kind.read? = _
    rw [each]
    rfl
  obtain ⟨found, read, same⟩ := Option.map_eq_some_iff.mp listed
  rw [readCells?, read, Vector.toArray_inj.mp same]

/-- A column is read by its kind, and columns are read one by one. -/
theorem columnsOf?_of_forall₂ {names : List String} {sample rows : List (List Bytes)}
    {columns : List (Column α rows.length)}
    (each : List.Forall₂ (fun (p : String × Nat) column => column.name = p.1 ∧ ∃ kind, kindOf? sample p.2 = some kind ∧
      (rows.map fun row => row[p.2]?.getD []).mapM kind.read? = some column.cells.toList)
      (distinctNames names).zipIdx columns) : columnsOf? names sample rows = some columns := by
  refine mapM_eq_some_iff.mpr (each.imp fun p column read => ?_)
  obtain ⟨named, kind, told, cells⟩ := read
  have filled : readCells? kind ((⟨rows.toArray, rfl⟩ : Vector (List Bytes) rows.length).map fun row =>
      row[p.2]?.getD []) = some column.cells := readCells?_of_toList (by simpa using cells)
  simp only [told, filled, ← named, Option.bind_eq_bind, Option.bind_some]
  rfl

/-- The table that a text holds, by the lines that it is cut into. -/
theorem ofBytes?_eq_some {text header body : Bytes} {names : List String} {sample rows : List (List Bytes)}
    {columns : List (Column α rows.length)} (nonempty : (trimStart text).isEmpty = false)
    (cut : cutLine false (trimStart text) = (header, body))
    (named : (cellsOf header).mapM (fun cell => Utf8.decode? (inner cell)) = some names)
    (sampled : (firstLines sampleSize body).map cellsOf = sample) (lined : lines body = rows)
    (read : columnsOf? names sample rows = some columns) (distinct : (columns.map Column.name).Nodup)
    (short : rows.all (·.length ≤ names.length) = true) :
    ofBytes? text = some ⟨rows.length, columns, distinct⟩ := by
  subst sampled lined
  simp only [ofBytes?, nonempty]
  generalize cutLine false (trimStart text) = line at cut
  subst cut
  simpa [named, read, distinct] using short

end Reading

end Table

namespace ProblemFile

variable {α : Type} {height : Nat}

theorem filled_cases (column : Column α height) :
    (∃ value : Fin height → α, (∀ row, column.cells.get row = some (value row)) ∧
      filled column = .ok (Vector.ofFn value)) ∨
    ∃ row, column.FirstEmpty row ∧ filled column = .error (.emptyCell column.name row) := by
  rw [filled]
  rcases column.values_cases with ⟨value, full, given⟩ | ⟨row, first, refused⟩
  · exact .inl ⟨value, full, by rw [given]; rfl⟩
  · exact .inr ⟨row, first, by rw [refused]; rfl⟩

/-- A column with the values of a function is read as these values. -/
theorem filled_of_full {column : Column α height} {value : Fin height → α}
    (full : ∀ row, column.cells.get row = some (value row)) : filled column = .ok (Vector.ofFn value) := by
  rcases filled_cases column with ⟨other, held, given⟩ | ⟨row, first, -⟩
  · have same : other = value := funext fun row => Option.some.inj ((held row).symm.trans (full row))
    rw [given, same]
  · cases first.empty.symm.trans (full row)

/-- The columns with an empty cell are those that are refused. -/
theorem filled_eq_error_iff {column : Column α height} :
    (∃ e, filled column = .error e) ↔ ∃ row, column.cells.get row = none := by
  rcases filled_cases column with ⟨value, full, read⟩ | ⟨row, first, refused⟩
  · refine iff_of_false ?_ ?_
    · rintro ⟨e, refused⟩
      cases read.symm.trans refused
    · rintro ⟨row, empty⟩
      cases empty.symm.trans (full row)
  · exact iff_of_true ⟨_, refused⟩ ⟨row, first.empty⟩

variable {table : Table α} {offset : Column α table.height}

section Columns

variable (member : offset ∈ table.columns) (named : offset.name = "offset")

include member named

/-- The offsets are searched first, and then the coordinates. -/
theorem scan_eq : table.scan = offset :: table.coordinates := by
  have one := filter_key_eq_singleton table.nodup_names member
  rw [named] at one
  rw [Table.scan, one]
  rfl

theorem find?_offset : table.columns.find? (·.name == "offset") = some offset := by
  have one := filter_key_eq_singleton table.nodup_names member
  rw [named] at one
  rw [← List.head?_filter, one]
  rfl

omit member named in
/-- All columns are searched. -/
theorem mem_scan {column : Column α table.height} (among : column ∈ table.columns) : column ∈ table.scan := by
  by_cases same : column.name = "offset"
  · exact List.mem_append_left _ (List.mem_filter.mpr ⟨among, by simpa using same⟩)
  · exact List.mem_append_right _ (List.mem_filter.mpr ⟨among, by simpa using same⟩)

/-- The columns are filled in the order of the search, and then read row by row. -/
theorem ofTable_eq (direction : List α) : ofTable direction table =
    (filled offset).bind fun offsets => (table.coordinates.mapM filled).bind fun normals =>
      if normals.isEmpty then .error .missingNormals
      else .ok ⟨direction, (List.finRange table.height).map fun row => ⟨normals.map (·.get row), offsets.get row⟩⟩ := by
  rw [ofTable, find?_offset member named]
  rfl

/-- A table without empty cells holds the file of its rows. -/
theorem ofTable_of_full {direction : List α} {value : String → Fin table.height → α}
    (some_coordinate : table.coordinates ≠ [])
    (full : ∀ column ∈ table.columns, ∀ row, column.cells.get row = some (value column.name row)) :
    ofTable direction table = .ok (table.rows direction value) := by
  have offsets : filled offset = .ok (Vector.ofFn (value "offset")) := named ▸ filled_of_full (full offset member)
  have normals : table.coordinates.mapM filled =
      .ok (table.coordinates.map fun column => Vector.ofFn (value column.name)) := by
    have each : ∀ column ∈ table.coordinates, filled column = .ok (Vector.ofFn (value column.name)) :=
      fun column among => filled_of_full (full column (List.mem_filter.mp among).1)
    have listed := mapM_map_eq_pure id each
    rwa [List.map_id] at listed
  rw [ofTable_eq member named, offsets, normals]
  simp only [Except.bind]
  rw [if_neg (by simpa using some_coordinate)]
  have at_row : ∀ (cells : Fin table.height → α) (row : Fin table.height), (Vector.ofFn cells).get row = cells row :=
    fun _ row => Vector.getElem_ofFn row.isLt
  simp [Table.rows, List.ofFn_eq_map, Function.comp_def, at_row]

/-- A table with an empty cell is refused for the first one. -/
theorem ofTable_of_empty (direction : List α)
    (empty : ∃ column ∈ table.columns, ∃ row, column.cells.get row = none) :
    ∃ column row, table.FirstEmpty column row ∧
      ofTable direction table = .error (.emptyCell column.name row) := by
  rw [ofTable_eq member named]
  have refusal : (fun column : Column α table.height => ∃ e, filled column = .error e) =
      fun column => ∃ row, column.cells.get row = none := funext fun _ => propext filled_eq_error_iff
  rcases filled_cases offset with ⟨value, full, read⟩ | ⟨row, first, refused⟩
  · have passed : ¬∃ row, offset.cells.get row = none := by
      rintro ⟨row, none⟩
      cases none.symm.trans (full row)
    rcases mapM_cases filled table.coordinates with ⟨columns, -, each⟩ | ⟨position, column, e, found, failed, all⟩
    · -- Every column has been filled, so none has an empty cell.
      have filled_all : ∀ column ∈ table.coordinates, ∃ values, filled column = .ok values :=
        (forall_mem_iff_of_forall₂ (Q := fun _ => True) each
          fun _ values given => iff_of_true ⟨values, given⟩ trivial).mpr fun _ _ => trivial
      obtain ⟨column, among, hole⟩ := empty
      rcases List.mem_cons.mp (scan_eq member named ▸ mem_scan among) with rfl | coordinate
      · exact absurd hole passed
      · obtain ⟨e, refused⟩ := filled_eq_error_iff.mpr hole
        obtain ⟨values, given⟩ := filled_all column coordinate
        cases given.symm.trans refused
    · obtain ⟨row, first, refused⟩ : ∃ row, column.FirstEmpty row ∧
        filled column = .error (.emptyCell column.name row) := by
        rcases filled_cases column with ⟨value, -, read⟩ | refused
        · cases read.symm.trans failed
        · exact refused
      cases failed.symm.trans refused
      refine ⟨column, row, ⟨⟨position + 1, ?_⟩, first⟩, by rw [read, all]; rfl⟩
      rw [refusal] at found
      rw [scan_eq member named]
      exact found.tail passed
  · refine ⟨offset, row, ⟨⟨0, ?_⟩, first⟩, by rw [refused]; rfl⟩
    rw [scan_eq member named]
    exact .head ⟨row, first.empty⟩ _

end Columns

/-! ## Loading -/

section Loading

variable [Scalar α] [NumberText α] {dir : Directory} {path : String} {direction : List α}

theorem load_of_table (csv : Path.extension? path = some "csv")
    (delivered : (dir.read? path).bind Table.ofBytes? = some table) :
    load dir path (some direction) = (ofTable direction table).mapError (.table path) := by
  rw [load, if_neg (by rw [csv]; decide), if_pos csv]
  show loadTable dir path direction = _
  rw [loadTable, delivered]

theorem load_of_spelledBy {file : ProblemFile α} {value : Json} (json : Path.extension? path = some "json")
    (parsed : (dir.read? path).bind Json.parse? = some value) (spelled : file.SpelledBy value) :
    load dir path none = .ok file := by
  obtain ⟨document, read, parsed⟩ := Option.bind_eq_some_iff.mp parsed
  rw [load, if_pos json, loadDocument, read]
  dsimp only
  rw [ofDocument?, parsed, Option.bind_eq_bind, Option.bind_some, ofJson?_of_spelledBy spelled]
  rfl

/-- **Tables and documents agree.** A table with offsets that has been read from a file is loaded, if it has other
columns and no empty cell, as the file of its rows, and so is a document that spells these rows with the same
direction. With an empty cell it is refused for the first one. -/
theorem load_table_agrees (csv : Path.extension? path = some "csv")
    (delivered : (dir.read? path).bind Table.ofBytes? = some table)
    (member : offset ∈ table.columns) (named : offset.name = "offset") :
    (∀ value : String → Fin table.height → α, table.coordinates ≠ [] →
      (∀ column ∈ table.columns, ∀ row, column.cells.get row = some (value column.name row)) →
      load dir path (some direction) = .ok (table.rows direction value) ∧
        ∀ (other : Directory) (document : String) (json : Json), Path.extension? document = some "json" →
          (other.read? document).bind Json.parse? = some json → (table.rows direction value).SpelledBy json →
          load other document none = load dir path (some direction)) ∧
    ((∃ column ∈ table.columns, ∃ row, column.cells.get row = none) →
      ∃ column row, table.FirstEmpty column row ∧
        load dir path (some direction) = .error (.table path (.emptyCell column.name row))) := by
  rw [load_of_table csv delivered]
  constructor
  · intro value some_coordinate full
    have read : ofTable direction table = .ok (table.rows direction value) :=
      ofTable_of_full member named some_coordinate full
    rw [read]
    refine ⟨rfl, fun other document json named parsed spelled => ?_⟩
    exact load_of_spelledBy named parsed spelled
  · intro empty
    obtain ⟨column, row, first, refused⟩ := ofTable_of_empty member named direction empty
    exact ⟨column, row, first, by rw [refused]; rfl⟩

end Loading

/-! ## A table with the offsets in the middle -/

/-- The cells of the table by the names of the columns. -/
noncomputable def mixedValue (name : String) (row : Fin 2) : AlgebraicReal :=
  Scalar.ofNat (3 * row + if name = "a" then 1 else if name = "offset" then 2 else 3)

/-- The direction that goes with the table. -/
noncomputable def mixedDirection : List AlgebraicReal := [Scalar.ofNat 1, Scalar.ofNat 0]

/-- Two rows with two coordinates each. -/
noncomputable def mixedTable : Table AlgebraicReal :=
  ⟨2, ["a", "offset", "b"].map fun name => ⟨name, Vector.ofFn fun row => some (mixedValue name row)⟩, by decide⟩

/-- The text of the table. -/
def mixedText : Bytes := Utf8.encode "a,offset,b\n1,2,3\n4,5,6\n"

/-- A directory with the table and with the document of its rows. -/
noncomputable def mixedDirectory : Directory :=
  (Directory.empty.put ["t.csv".toList] mixedText).put ["t.json".toList]
    (mixedTable.rows mixedDirection mixedValue).toJson.pretty

theorem ofBytes?_mixedText : Table.ofBytes? mixedText = some mixedTable := by
  let rows : List (List Bytes) := [[[49], [50], [51]], [[52], [53], [54]]]
  have names : (Table.distinctNames ["a", "offset", "b"]).zipIdx = [("a", 0), ("offset", 1), ("b", 2)] := by decide
  have columns : Table.columnsOf? ["a", "offset", "b"] rows rows = some mixedTable.columns := by
    refine Table.columnsOf?_of_forall₂ ?_
    rw [names]
    exact .cons ⟨rfl, .whole, by decide, rfl⟩ <| .cons ⟨rfl, .whole, by decide, rfl⟩ <|
      .cons ⟨rfl, .whole, by decide, rfl⟩ .nil
  have header : Table.cellsOf (Utf8.encode "a,offset,b") = ["a", "offset", "b"].map Utf8.encode := by decide
  have plain : ∀ name ∈ ["a", "offset", "b"], Table.inner (Utf8.encode name) = Utf8.encode name := by decide
  have named : (Table.cellsOf (Utf8.encode "a,offset,b")).mapM (fun cell => Utf8.decode? (Table.inner cell)) =
      some ["a", "offset", "b"] := by
    rw [header]
    refine (mapM_map_eq_pure (g := id) Utf8.encode fun name among => ?_).trans (congrArg some (List.map_id _))
    rw [plain name among]
    exact Utf8.decode?_encode name
  have nonempty : (Table.trimStart mixedText).isEmpty = false := by decide
  have cut : Table.cutLine false (Table.trimStart mixedText) =
      (Utf8.encode "a,offset,b", Utf8.encode "1,2,3\n4,5,6\n") := by decide
  have sampled : (Table.firstLines Table.sampleSize (Utf8.encode "1,2,3\n4,5,6\n")).map Table.cellsOf = rows := by
    decide
  have lined : Table.lines (Utf8.encode "1,2,3\n4,5,6\n") = rows := by decide
  exact Table.ofBytes?_eq_some nonempty cut named sampled lined columns mixedTable.nodup_names (by decide)

theorem load_mixedTable_agrees :
    (mixedDirectory.read? "t.csv").bind Table.ofBytes? = some mixedTable ∧
    load mixedDirectory "t.csv" (some mixedDirection) = .ok (mixedTable.rows mixedDirection mixedValue) ∧
    load mixedDirectory "t.json" none = load mixedDirectory "t.csv" (some mixedDirection) := by
  have csv : Path.extension? "t.csv" = some "csv" := by decide
  have json : Path.extension? "t.json" = some "json" := by decide
  have delivered : (mixedDirectory.read? "t.csv").bind Table.ofBytes? = some mixedTable := by
    have held : mixedDirectory.read? "t.csv" = some mixedText := rfl
    rw [held, Option.bind_some, ofBytes?_mixedText]
  have offsets : (⟨"offset", Vector.ofFn fun row => some (mixedValue "offset" row)⟩ : Column AlgebraicReal 2) ∈
      mixedTable.columns := .tail _ (.head _)
  have full : ∀ column ∈ mixedTable.columns, ∀ row, column.cells.get row = some (mixedValue column.name row) := by
    refine List.forall_mem_map.mpr fun name _ row => ?_
    exact Vector.getElem_ofFn row.isLt
  have parsed : (mixedDirectory.read? "t.json").bind Json.parse? =
      some (mixedTable.rows mixedDirection mixedValue).toJson := by
    have held : mixedDirectory.read? "t.json" = some (mixedTable.rows mixedDirection mixedValue).toJson.pretty := rfl
    rw [held, Option.bind_some, (wellWritten_toJson _).parse?_pretty]
  have spelled : (mixedTable.rows mixedDirection mixedValue).SpelledBy (mixedTable.rows mixedDirection mixedValue).toJson :=
    spelledBy_toJson ⟨fun _ _ => ExactScalar.isFinite_eq_true _,
      fun _ _ => ⟨fun _ _ => ExactScalar.isFinite_eq_true _, ExactScalar.isFinite_eq_true _⟩⟩
  obtain ⟨loaded, agrees⟩ := (load_table_agrees csv delivered offsets rfl).1 mixedValue (by decide) full
  exact ⟨delivered, loaded, agrees mixedDirectory "t.json" _ json parsed spelled⟩

end ProblemFile

end LowDimLP
