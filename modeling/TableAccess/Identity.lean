import TableAccess.NodeKey
import TableAccess.Role
import TableAccess.Text.Record

/-!
# Identities

What a node stands for, independently of the slot it lives in: a table, or a row, column or cell of
the table with a given key. A node is looked up by its identity before a new one is made; for that,
identities are ordered.
-/

namespace TableAccess

/-- What a node stands for. -/
inductive Identity where
  /-- A table; it carries its own key. -/
  | table (table : NodeKey)
  /-- A row of a table. -/
  | row (table : NodeKey) (row : Nat)
  /-- A column of a table. -/
  | column (table : NodeKey) (column : Nat)
  /-- A cell of a table. -/
  | cell (table : NodeKey) (row column : Nat)
deriving DecidableEq, Repr

namespace Identity

/-- The key of the table it belongs to. -/
def tableKey : Identity → NodeKey
  | .table t => t
  | .row t _ => t
  | .column t _ => t
  | .cell t _ _ => t

/-- The role of a node that stands for it. -/
def role : Identity → Role
  | .table _ => .table
  | .row _ _ => .row
  | .column _ _ => .column
  | .cell _ _ _ => .cell

/-- Only the table itself has the role of a table. -/
theorem eq_of_role_table {i : Identity} (h : i.role = .table) : i = .table i.tableKey := by
  cases i with
  | table => rfl
  | _ => cases h

/-- The numbers that tell it from all others, and by which identities are ordered. -/
def place : Identity → List Nat
  | .table t => [t.index.toNat, t.version.toNat]
  | .row t r => [t.index.toNat, t.version.toNat, 0, r]
  | .column t c => [t.index.toNat, t.version.toNat, 1, c]
  | .cell t r c => [t.index.toNat, t.version.toNat, 2, r, c]

theorem place_injective {i j : Identity} (h : i.place = j.place) : i = j := by
  cases i <;> cases j <;> simp_all [place, UInt32.toNat_inj, NodeKey.ext_iff]

instance : Ord Identity := ⟨compareOn place⟩

instance : Std.TransOrd Identity := inferInstanceAs (Std.TransCmp (compareOn place))

instance : Std.LawfulEqOrd Identity where
  eq_of_compare h := place_injective (Std.LawfulEqCmp.eq_of_compare h)

/-- The debug text. -/
def debugText : Identity → String
  | .table t => Text.wrapped "Table" t.debugText
  | .row t r => Text.record "Row" [("table", t.debugText), ("row", toString r)]
  | .column t c => Text.record "Column" [("table", t.debugText), ("column", toString c)]
  | .cell t r c =>
    Text.record "Cell" [("table", t.debugText), ("row", toString r), ("column", toString c)]

end Identity

end TableAccess
