/-!
# Tables

A table has named columns of one height. A cell holds a scalar or is empty.
-/

namespace LowDimLP

/-- A named column of `height` cells. -/
structure Column (α : Type) (height : Nat) where
  name : String
  cells : Vector (Option α) height

/-- Columns of one height under distinct names. -/
structure Table (α : Type) where
  height : Nat
  columns : List (Column α height)
  nodup_names : (columns.map Column.name).Nodup

namespace Column

variable {α : Type} {height : Nat}

/-- The first row whose cell is empty. -/
def emptyRow? (column : Column α height) : Option (Fin height) :=
  (List.finRange height).find? fun row => (column.cells.get row).isNone

theorem isSome_of_emptyRow?_eq_none {column : Column α height} (h : column.emptyRow? = none)
    (row : Fin height) : (column.cells.get row).isSome := by
  have := List.find?_eq_none.1 h row (List.mem_finRange row)
  simpa [Option.isNone_iff_eq_none, Option.isSome_iff_ne_none] using this

/-- The values of a column without empty cells; otherwise the first row that has one. -/
def values (column : Column α height) : Except (Fin height) (Vector α height) :=
  match h : column.emptyRow? with
  | some row => .error row
  | none => .ok (Vector.ofFn fun row =>
      (column.cells.get row).get (isSome_of_emptyRow?_eq_none h row))

end Column

end LowDimLP
