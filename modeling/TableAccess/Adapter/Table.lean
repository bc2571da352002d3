import TableAccess.Adapter.Basic

/-!
# Table nodes

The node of a whole table. Its children are the rows, then the columns.
-/

namespace TableAccess.Adapter.Table

variable {μ : Type}

/-- Name and counts, read together. -/
def tryShape (a : Adapter) : Act μ (Except Unavailable Shape) := a.tryRead Reading.shape

/-- Name and counts, if there are any. -/
def shape (a : Adapter) : Act μ (Option Shape) := do a.degrade "shape" (← tryShape a)

/-- The number of columns. -/
def columnCount (a : Adapter) : Act μ (Option Nat) := a.read "column_count" Reading.columnCount

/-- The number of rows. -/
def rowCount (a : Adapter) : Act μ (Option Nat) := a.read "row_count" Reading.rowCount

/-- The node made by `make` if `present` says so and a bridge holds the tree. -/
def nodeIf (a : Adapter) (present : Option Bool) (make : Act μ Adapter) :
    Act μ (Option Adapter) := do
  if present = some true then
    if ← a.hasTree then return some (← make) else pure none
  else pure none

/-- The node of a column that is there now. -/
def column (a : Adapter) (column : Nat) : Act μ (Option Adapter) := do
  nodeIf a (← a.read "column" (Reading.hasColumn column)) (columnNode a.tree a.key a.peer column)

/-- The node of a row that is there now. -/
def row (a : Adapter) (row : Nat) : Act μ (Option Adapter) := do
  nodeIf a (← a.read "row" (Reading.hasRow row)) (rowNode a.tree a.key a.peer row)

/-- The node of a cell that is there now. -/
def cell (a : Adapter) (row column : Nat) : Act μ (Option Adapter) := do
  nodeIf a (← a.read "cell" (Reading.hasCell row column))
    (cellNode a.tree a.key a.peer row column)

/-- The nodes of the first `count` rows. -/
def rowNodes (a : Adapter) (count : Nat) : Act μ (List Adapter) :=
  Act.each (List.range count) (rowNode a.tree a.key a.peer)

/-- The nodes of the first `count` columns. -/
def columnNodes (a : Adapter) (count : Nat) : Act μ (List Adapter) :=
  Act.each (List.range count) (columnNode a.tree a.key a.peer)

/-- The nodes of the columns that are there now, left to right. -/
def columns (a : Adapter) : Act μ (List Adapter) := do
  match ← columnCount a, ← a.hasTree with
  | some count, true => do
    Act.makeRoom .node count
    columnNodes a count
  | _, _ => pure []

/-- The nodes of the rows that are there now, top to bottom. -/
def rows (a : Adapter) : Act μ (List Adapter) := do
  match ← rowCount a, ← a.hasTree with
  | some count, true => do
    Act.makeRoom .node count
    rowNodes a count
  | _, _ => pure []

/-- All headers, read together. -/
def columnHeaders (a : Adapter) : Act μ (List (Option String)) := do
  return (← a.read "column_headers" Reading.headers).getD []

/-- The rows, then the columns, of a table of some shape. -/
def childrenFor (a : Adapter) (shape : Shape) : Act μ (List Adapter) := do
  if ← a.hasTree then
    Act.makeRoom .anyNode (shape.rows + shape.columns)
    let rows ← rowNodes a shape.rows
    let columns ← columnNodes a shape.columns
    pure (rows ++ columns)
  else pure []

/-- The rows, then the columns, that are there now. -/
def children (a : Adapter) : Act μ (List Adapter) := do
  match ← shape a with
  | some shape => childrenFor a shape
  | none => pure []

/-- The number of rows and columns. -/
def childCount (a : Adapter) : Act μ (Option Nat) := do
  return (← shape a).map fun s => s.rows + s.columns

/-- The name of the table. -/
def label (a : Adapter) : Act μ (Option String) := do return (← shape a).bind Shape.name

end TableAccess.Adapter.Table
