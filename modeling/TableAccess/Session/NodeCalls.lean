import TableAccess.DebugText
import TableAccess.Session.ContextCalls

/-!
# Calls to nodes

What a session asks of nodes. Some calls every node answers; the others are for nodes of one kind,
and a node of another kind complains.
-/

namespace TableAccess.Session

/-- Role and key of a node. -/
def brief (a : Adapter) : Role × NodeKey := (a.role, a.key)

/-- An answer with the key of a node that is then held, if there is one. -/
def keyKept (handle : Option String) (node : Option Adapter) : Act Desk Answer := do
  if let some a := node then keep handle a
  pure (.key (node.map Adapter.key))

/-- The attributes with what a node answers to each. -/
def valuesBy (ask : Attribute → Act Desk AttributeValue) : Act Desk Answer := do
  return .values (← Act.each Attribute.all fun attr => return (attr, ← ask attr))

/-- The parent of the parent. -/
def grandparentOf (a : Adapter) : Act Desk (Option Adapter) := do
  match ← a.parentOf with
  | some parent => parent.parentOf
  | none => pure none

/-- What every node answers; none if the call is for nodes of one kind. -/
def commonAnswer? (a : Adapter) : NodeCall → Option (Act Desk Answer)
  | .key => some (pure (.key (some a.key)))
  | .identity => some (pure (.identity a.identity))
  | .role => some (pure (.role a.role))
  | .parent => some do return .node ((← a.parentOf).map brief)
  | .grandparent => some do return .node ((← grandparentOf a).map brief)
  | .children => some do return .nodes ((← a.children).map brief)
  | .treeChildren => some do return .nodes ((← a.treeChildren).map brief)
  | .childCount => some do return .count (← a.childCount)
  | .isValid => some do return .flag (← a.isValid)
  | .label => some do return .text (← a.label)
  | .indexInParent => some do return .count (← a.indexInParent)
  | .answer attr => some do return .value (← a.answer attr)
  | .answers => some (valuesBy a.answer)
  | .roleAnswers => some (valuesBy a.roleAnswer)
  | .build => some do return .treeNode (← a.build)
  | .kinds =>
    some (pure (.kinds (if a.role = .table then some a.key else none)
      (if a.role = .column then some a.key else none)))
  | _ => none

/-- What the node of a table answers. -/
def tableAnswer (a : Adapter) : NodeCall → Work Answer
  | .tryShape => do return .shape (some (← orUnavailable (← act (Adapter.Table.tryShape a))))
  | .shape => do return .shape (← act (Adapter.Table.shape a))
  | .columnCount => do return .count (← act (Adapter.Table.columnCount a))
  | .rowCount => do return .count (← act (Adapter.Table.rowCount a))
  | .column (some column) handle => act do keyKept handle (← Adapter.Table.column a column)
  | .row (some row) handle => act do keyKept handle (← Adapter.Table.row a row)
  | .cell (some row) (some column) handle =>
    act do keyKept handle (← Adapter.Table.cell a row column)
  | .column none _ | .row none _ | .cell _ _ _ => complain .badInput
  | .columns => do return .keys ((← act (Adapter.Table.columns a)).map Adapter.key)
  | .rows => do return .keys ((← act (Adapter.Table.rows a)).map Adapter.key)
  | .columnHeaders => do return .texts (← act (Adapter.Table.columnHeaders a))
  | _ => complain .wrongKind

/-- What the node of a row answers. -/
def rowAnswer (a : Adapter) (row : Nat) : NodeCall → Work Answer
  | .row _ _ => pure (.count (some row))
  | .tryRowIndex => do return .count (some (← orUnavailable (← act (Adapter.Row.tryIndex a row))))
  | .rowIndexInTable => do return .count (← act (Adapter.Row.index a row))
  | .columnCount => do return .count (← act (Adapter.Row.columnCount a row))
  | .cells => do return .keys ((← act (Adapter.Row.cells a row)).map Adapter.key)
  | _ => complain .wrongKind

/-- What the node of a column answers. -/
def columnAnswer (a : Adapter) (column : Nat) : NodeCall → Work Answer
  | .column _ _ => pure (.count (some column))
  | .tableKey => pure (.key (some a.tableKey))
  | .tryColumnNumber => do
    return .count (some (← orUnavailable (← act (Adapter.Column.tryNumber a column))))
  | .columnNumber => do return .count (← act (Adapter.Column.number a column))
  | .tryHeaderText => do
    return .text (← orUnavailable (← act (Adapter.Column.tryHeader a column)))
  | .headerText => do return .text (← act (Adapter.Column.header a column))
  | .columnSpan => do return .count (← act (Adapter.Column.span a column))
  | .rowCount => do return .count (← act (Adapter.Column.rowCount a column))
  | .cells => do return .keys ((← act (Adapter.Column.cells a column)).map Adapter.key)
  | _ => complain .wrongKind

/-- What the node of a cell answers. -/
def cellAnswer (a : Adapter) (row column : Nat) : NodeCall → Work Answer
  | .position => pure (.position row column)
  | .rowIndex => do return .count (← act (Adapter.Cell.rowIndex a row column))
  | .columnIndex => do return .count (← act (Adapter.Cell.columnIndex a row column))
  | .tryText => do return .text (← orUnavailable (← act (Adapter.Cell.tryText a row column)))
  | .text => do return .text (← act (Adapter.Cell.text a row column))
  | .headerText => do return .text (← act (Adapter.Cell.header a row column))
  | _ => complain .wrongKind

/-- What only the nodes of one kind answer. -/
def roleSpecificAnswer (a : Adapter) (call : NodeCall) : Work Answer :=
  match a.identity with
  | .table _ => tableAnswer a call
  | .row _ row => rowAnswer a row call
  | .column _ column => columnAnswer a column call
  | .cell _ row column => cellAnswer a row column call

/-- What a node answers. -/
def askNode (a : Adapter) (call : NodeCall) : Work Answer :=
  match call with
  | .debugText context => do
    awaitIdle (← contextNamed context)
    return .text (some ((← get).nodeText a))
  | .malformed => complain .badInput
  | call =>
    match commonAnswer? a call with
    | some work => act work
    | none => roleSpecificAnswer a call

end TableAccess.Session
