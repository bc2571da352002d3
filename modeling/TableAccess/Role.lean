/-!
# Roles

What a node stands for. Accessibility trees have no role for columns: a column is a generic
container there, with its index and its header as label.
-/

namespace TableAccess

/-- What a node stands for. -/
inductive Role where
  /-- A table. -/
  | table
  /-- A row of a table. -/
  | row
  /-- A column of a table. -/
  | column
  /-- A cell of a table. -/
  | cell
deriving DecidableEq, Repr

/-- The roles of an accessibility tree that tables use. -/
inductive TreeRole where
  /-- A table. -/
  | table
  /-- A row. -/
  | row
  /-- A container without a meaning of its own. -/
  | genericContainer
  /-- A cell. -/
  | cell
deriving DecidableEq, Repr

namespace Role

/-- The name in logs and outlines. -/
def name : Role → String
  | .table => "table"
  | .row => "row"
  | .column => "column"
  | .cell => "cell"

/-- The name in debug texts. -/
def debugText : Role → String
  | .table => "Table"
  | .row => "Row"
  | .column => "Column"
  | .cell => "Cell"

/-- The role in the accessibility tree. -/
def toTreeRole : Role → TreeRole
  | .table => .table
  | .row => .row
  | .column => .genericContainer
  | .cell => .cell

end Role

/-- The name of a tree role. -/
def TreeRole.name : TreeRole → String
  | .table => "Table"
  | .row => "Row"
  | .genericContainer => "GenericContainer"
  | .cell => "Cell"

theorem Role.toTreeRole_injective {a b : Role} (h : a.toTreeRole = b.toTreeRole) : a = b := by
  cases a <;> cases b <;> first | rfl | exact absurd h (by decide)

end TableAccess
