import TableAccess.Identity
import TableAccess.Text.Quoted

/-!
# Attributes and their values

What a screen reader can ask a node for, and the shapes an answer can take. `none` is the explicit
"no value", the answer of every question that fails or that the node's role does not carry.
-/

namespace TableAccess

/-- What a node can be asked for. -/
inductive Attribute where
  /-- What the node stands for. -/
  | role
  /-- Its accessible name. -/
  | label
  /-- Its position among its parent's children of the same role. -/
  | index
  /-- Its row in the table. -/
  | rowIndex
  /-- Its column in the table. -/
  | columnIndex
  /-- Its parent. -/
  | parent
  /-- Its children. -/
  | children
  /-- How many children it has. -/
  | childCount
  /-- How many rows it has. -/
  | rowCount
  /-- How many columns it has. -/
  | columnCount
  /-- The header of its column. -/
  | header
  /-- How many columns it spans. -/
  | columnSpan
  /-- The text of a cell. -/
  | value
  /-- Whether its table is still there. -/
  | valid
deriving DecidableEq, Repr

namespace Attribute

/-- All attributes, in the order of declaration. -/
def all : List Attribute :=
  [.role, .label, .index, .rowIndex, .columnIndex, .parent, .children, .childCount, .rowCount,
    .columnCount, .header, .columnSpan, .value, .valid]

/-- The name of an attribute. -/
def name : Attribute → String
  | .role => "Role"
  | .label => "Label"
  | .index => "Index"
  | .rowIndex => "RowIndex"
  | .columnIndex => "ColumnIndex"
  | .parent => "Parent"
  | .children => "Children"
  | .childCount => "ChildCount"
  | .rowCount => "RowCount"
  | .columnCount => "ColumnCount"
  | .header => "Header"
  | .columnSpan => "ColumnSpan"
  | .value => "Value"
  | .valid => "Valid"

theorem mem_all (a : Attribute) : a ∈ all := by cases a <;> decide

end Attribute

/-- What an attribute is answered with. -/
inductive AttributeValue where
  /-- No value. -/
  | none
  /-- A role. -/
  | role (r : Role)
  /-- A text. -/
  | text (s : String)
  /-- A position, counted from zero. -/
  | index (n : Nat)
  /-- A number of things. -/
  | count (n : Nat)
  /-- Yes or no. -/
  | bool (b : Bool)
  /-- Another node. -/
  | node (id : NodeId)
  /-- Other nodes. -/
  | nodes (ids : List NodeId)
deriving DecidableEq, Repr

namespace AttributeValue

def isNone : AttributeValue → Bool
  | .none => true
  | _ => false

def asIndex : AttributeValue → Option Nat
  | .index n => some n
  | _ => Option.none

def asCount : AttributeValue → Option Nat
  | .count n => some n
  | _ => Option.none

def asText : AttributeValue → Option String
  | .text s => some s
  | _ => Option.none

/-- A text, or no value. -/
def ofText : Option String → AttributeValue
  | some s => .text s
  | Option.none => .none

/-- A position, or no value. -/
def ofIndex : Option Nat → AttributeValue
  | some n => .index n
  | Option.none => .none

/-- A number of things, or no value. -/
def ofCount : Option Nat → AttributeValue
  | some n => .count n
  | Option.none => .none

/-- The debug text of a node id. -/
def idText (id : NodeId) : String := Text.wrapped "NodeId" (toString id.toNat)

/-- The debug text. -/
def debugText : AttributeValue → String
  | .none => "None"
  | .role r => Text.wrapped "Role" r.debugText
  | .text s => Text.wrapped "Text" (Text.quote s)
  | .index n => Text.wrapped "Index" (toString n)
  | .count n => Text.wrapped "Count" (toString n)
  | .bool b => Text.wrapped "Bool" (Text.flag b)
  | .node id => Text.wrapped "Node" (idText id)
  | .nodes ids =>
    Text.wrapped "Nodes" ("[" ++ String.intercalate ", " (ids.map idText) ++ "]")

end AttributeValue

end TableAccess
