import TableAccess.Adapter.Basic

/-!
# Row nodes

The node of one row. Its children are the cells of the row.
-/

namespace TableAccess.Adapter.Row

variable {μ : Type}

/-- The row's position, while it is there. -/
def tryIndex (a : Adapter) (row : Nat) : Act μ (Except Unavailable Nat) :=
  a.tryRead (Reading.rowIndex row)

/-- The row's position, if it is there. -/
def index (a : Adapter) (row : Nat) : Act μ (Option Nat) := do
  a.degrade "row_index_in_table" (← tryIndex a row)

/-- The number of cells. -/
def columnCount (a : Adapter) (row : Nat) : Act μ (Option Nat) :=
  a.read "column_count" (Reading.columnsOfRow row)

/-- The nodes of the cells, left to right. -/
def cells (a : Adapter) (row : Nat) : Act μ (List Adapter) := do
  match ← columnCount a row, ← a.hasTree with
  | some count, true => do
    Act.makeRoom .node count
    Act.each (List.range count) (cellNode a.tree a.tableKey a.peer row)
  | _, _ => pure []

end TableAccess.Adapter.Row
