import TableAccess.Adapter.Cell
import TableAccess.Adapter.Column
import TableAccess.Adapter.Row
import TableAccess.Adapter.Table

/-!
# The questions every node answers

Parent, children, label, position and attributes of a node, whatever it stands for. Nothing is kept
from one question to the next: every answer is read from the table as it is.

## The model

* `parentOf`, `children`, `treeChildren`, `childCount`, `label`, `indexInParent` — the common
  questions.
* `roleAnswer`, `answer` — one attribute, answered with a value or with "no value".
-/

namespace TableAccess.Adapter

variable {μ : Type}

/-- The parent; a table has none. -/
def parentOf (a : Adapter) : Act μ (Option Adapter) :=
  match a.identity with
  | .table _ => pure none
  | _ => a.parentNode

/-- The children that are there now. -/
def children (a : Adapter) : Act μ (List Adapter) :=
  match a.identity with
  | .table _ => Table.children a
  | .row _ row => Row.cells a row
  | .column _ column => Column.cells a column
  | .cell _ _ _ => pure []

/-- How deep the nodes of a table go in the serialized tree: table, rows, cells. -/
def levels : Nat := 3

/-- The children in the serialized tree, where a cell belongs to its row alone. -/
def treeChildren (a : Adapter) : Act μ (List Adapter) :=
  match a.identity with
  | .column _ _ => pure []
  | _ => a.children

/-- The number of children, counted without making any. -/
def childCount (a : Adapter) : Act μ (Option Nat) :=
  match a.identity with
  | .table _ => Table.childCount a
  | .row _ row => Row.columnCount a row
  | .column _ column => Column.rowCount a column
  | .cell _ row column => Cell.childCount a row column

/-- The accessible name. -/
def label (a : Adapter) : Act μ (Option String) :=
  match a.identity with
  | .table _ => Table.label a
  | .row _ _ => pure none
  | .column _ column => Column.header a column
  | .cell _ row column => Cell.text a row column

/-- The position among the parent's children of the same role. -/
def indexInParent (a : Adapter) : Act μ (Option Nat) :=
  match a.identity with
  | .table _ => pure none
  | .row _ row => Row.index a row
  | .column _ column => Column.number a column
  | .cell _ row column => Cell.columnIndex a row column

/-- An attribute that only some roles carry. -/
def roleAnswer (a : Adapter) (attr : Attribute) : Act μ AttributeValue := do
  match a.identity, attr with
  | .table _, .rowCount => return .ofCount (← Table.rowCount a)
  | .table _, .columnCount => return .ofCount (← Table.columnCount a)
  | .row _ row, .rowIndex => return .ofIndex (← Row.index a row)
  | .row _ row, .columnCount => return .ofCount (← Row.columnCount a row)
  | .column _ column, .columnIndex => return .ofIndex (← Column.number a column)
  | .column _ column, .header => return .ofText (← Column.header a column)
  | .column _ column, .columnSpan => return .ofCount (← Column.span a column)
  | .column _ column, .rowCount => return .ofCount (← Column.rowCount a column)
  | .cell _ row column, .rowIndex => return .ofIndex (← Cell.rowIndex a row column)
  | .cell _ row column, .columnIndex => return .ofIndex (← Cell.columnIndex a row column)
  | .cell _ row column, .header => return .ofText (← Cell.header a row column)
  | .cell _ row column, .columnSpan =>
    return .ofCount ((← Cell.columnIndex a row column).map fun _ => 1)
  | .cell _ row column, .value => return .ofText (← Cell.text a row column)
  | _, _ => pure .none

/-- The ids of nodes. -/
def ids (nodes : List Adapter) : List NodeId := nodes.map fun a => a.key.toRaw

/-- One attribute. -/
def answer (a : Adapter) (attr : Attribute) : Act μ AttributeValue := do
  match attr with
  | .role => pure (.role a.role)
  | .valid => return .bool (← a.isValid)
  | .label => return .ofText (← a.label)
  | .parent =>
    match ← a.parentOf with
    | some parent => pure (.node parent.key.toRaw)
    | none => pure .none
  | .children => return .nodes (ids (← a.children))
  | .childCount => return .ofCount (← a.childCount)
  | .index => return .ofIndex (← a.indexInParent)
  | attr => a.roleAnswer attr

end TableAccess.Adapter
