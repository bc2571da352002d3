import TableAccess.Adapter.Basic

/-!
# Cell nodes

The node of one cell. Its parent is the row; it has no children.
-/

namespace TableAccess.Adapter.Cell

variable {μ : Type}

/-- Text and header, while row and column are there. -/
def trySnapshot (a : Adapter) (row column : Nat) : Act μ (Except Unavailable CellText) :=
  a.tryRead (Reading.cell row column)

/-- Text and header, if row and column are there. -/
def snapshot (a : Adapter) (question : String) (row column : Nat) : Act μ (Option CellText) := do
  a.degrade question (← trySnapshot a row column)

/-- The row, if the cell is there. -/
def rowIndex (a : Adapter) (row column : Nat) : Act μ (Option Nat) := do
  return (← snapshot a "row_index" row column).map fun _ => row

/-- The column, if the cell is there. -/
def columnIndex (a : Adapter) (row column : Nat) : Act μ (Option Nat) := do
  return (← snapshot a "column_index" row column).map fun _ => column

/-- The text, while the cell is there; it may have none. -/
def tryText (a : Adapter) (row column : Nat) : Act μ (Except Unavailable (Option String)) := do
  return (← trySnapshot a row column).map CellText.text

/-- The text, if there is one. -/
def text (a : Adapter) (row column : Nat) : Act μ (Option String) := do
  return (← snapshot a "text" row column).bind CellText.text

/-- The header of the column, if there is one. -/
def header (a : Adapter) (row column : Nat) : Act μ (Option String) := do
  return (← snapshot a "header_text" row column).bind CellText.header

/-- The number of children: none, while the cell is there. -/
def childCount (a : Adapter) (row column : Nat) : Act μ (Option Nat) := do
  return (← snapshot a "child_count" row column).map fun _ => 0

end TableAccess.Adapter.Cell
