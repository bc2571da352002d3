import TableAccess.Adapter.Basic

/-!
# Column nodes

The node of one column. It remembers its position; whether a column stands there is decided anew
with every question, so a column that went away and came back answers again. Its cells are children
too, but in the serialized tree they belong to their rows.
-/

namespace TableAccess.Adapter.Column

variable {μ : Type}

/-- The column's position, while it is there. -/
def tryNumber (a : Adapter) (column : Nat) : Act μ (Except Unavailable Nat) :=
  a.tryRead (Reading.columnIndex column)

/-- The column's position, if it is there. -/
def number (a : Adapter) (column : Nat) : Act μ (Option Nat) := do
  a.degrade "column_number_in_table" (← tryNumber a column)

/-- The header, while the column is there; it may have none. -/
def tryHeader (a : Adapter) (column : Nat) : Act μ (Except Unavailable (Option String)) :=
  a.tryRead (Reading.headerText column)

/-- The header, if there is one. -/
def header (a : Adapter) (column : Nat) : Act μ (Option String) := do
  return (← a.degrade "header_text" (← tryHeader a column)).join

/-- How many columns it spans: one, while it is there. -/
def span (a : Adapter) (column : Nat) : Act μ (Option Nat) := do
  return (← number a column).map fun _ => 1

/-- The number of cells. -/
def rowCount (a : Adapter) (column : Nat) : Act μ (Option Nat) :=
  a.read "row_count" (Reading.rowsOfColumn column)

/-- The nodes of the cells, top to bottom. -/
def cells (a : Adapter) (column : Nat) : Act μ (List Adapter) := do
  match ← rowCount a column, ← a.hasTree with
  | some count, true => do
    Act.makeRoom .node count
    Act.each (List.range count) fun row => cellNode a.tree a.tableKey a.peer row column
  | _, _ => pure []

end TableAccess.Adapter.Column
