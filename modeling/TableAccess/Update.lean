import TableAccess.Adapter.Node
import Std.Data.TreeSet

/-!
# Updates

A subtree of nodes written out for an accessibility tree: each node with its role, label, indices,
counts and children, parents before their children. Every node is read in hand-offs of its own, so a
child that a parent lists may be gone when its turn comes; it is left out, and its id is taken out
of the parent's list.

## The model

* `TreeNode` — one node written out; `Adapter.build` writes one, or nothing if it is unavailable.
* `visit` — the nodes of a subtree in order. A table is three levels deep: table, rows, cells.
* `dropDangling` — the nodes with only those children that were written out.
* `Update` — the nodes, the root if the update is a full one, and the focus.
-/

namespace TableAccess

/-- A node written out. -/
structure TreeNode where
  /-- Its role. -/
  role : TreeRole
  /-- Its label. -/
  label : Option String
  /-- Its row. -/
  rowIndex : Option Nat
  /-- Its column. -/
  columnIndex : Option Nat
  /-- How many rows it has. -/
  rowCount : Option Nat
  /-- How many columns it has. -/
  columnCount : Option Nat
  /-- Its children. -/
  children : List NodeId
deriving DecidableEq, Repr

/-- Some nodes written out. -/
structure Update where
  /-- The nodes with their ids, parents first. -/
  nodes : List (NodeId × TreeNode)
  /-- The root of the tree, in a full update. -/
  root : Option NodeId
  /-- The node that has the focus. -/
  focus : NodeId
deriving DecidableEq, Repr

/-- A node with nothing but a role. -/
def TreeNode.ofRole (role : TreeRole) : TreeNode := ⟨role, none, none, none, none, none, []⟩

variable {μ : Type}

namespace Adapter

/-- A table node written out. -/
def buildTable (a : Adapter) : Act μ (Option TreeNode) := do
  match ← Table.shape a with
  | none => pure none
  | some shape =>
    let children ← Table.childrenFor a shape
    pure (some { TreeNode.ofRole a.role.toTreeRole with
      label := shape.name
      rowCount := some shape.rows
      columnCount := some shape.columns
      children := ids children })

/-- A row node written out. -/
def buildRow (a : Adapter) (row : Nat) : Act μ (Option TreeNode) := do
  match ← Row.index a row with
  | none => pure none
  | some _ =>
    let children ← Row.cells a row
    pure (some { TreeNode.ofRole a.role.toTreeRole with
      rowIndex := some row
      children := ids children })

/-- A column node written out. -/
def buildColumn (a : Adapter) (column : Nat) : Act μ (Option TreeNode) := do
  match ← a.degrade "build_accessible_node" (← Column.tryHeader a column) with
  | none => pure none
  | some header =>
    pure (some { TreeNode.ofRole a.role.toTreeRole with
      columnIndex := some column
      label := header })

/-- A cell node written out. -/
def buildCell (a : Adapter) (row column : Nat) : Act μ (Option TreeNode) := do
  match ← Cell.snapshot a "build_accessible_node" row column with
  | none => pure none
  | some snapshot =>
    pure (some { TreeNode.ofRole a.role.toTreeRole with
      rowIndex := some row
      columnIndex := some column
      label := snapshot.text })

/-- The node written out, unless it is unavailable. -/
def build (a : Adapter) : Act μ (Option TreeNode) :=
  match a.identity with
  | .table _ => a.buildTable
  | .row _ row => a.buildRow row
  | .column _ column => a.buildColumn column
  | .cell _ row column => a.buildCell row column

end Adapter

/-- The nodes below a key and the one under it, at most so many levels of them, each before its
children. -/
def visit (t : TreeId) : (depth : Nat) → NodeKey → Act μ (List (NodeId × TreeNode))
  | 0, _ => pure []
  | depth + 1, k => do
    match (← getTree t).get? k with
    | none => pure []
    | some a =>
      match ← a.build with
      | none => pure []
      | some node =>
        let below ← Act.each node.children fun id => visit t depth (.ofRaw id)
        pure ((k.toRaw, node) :: below.flatten)

/-- A node with only those children that were written out. -/
def keepWritten (written : Std.TreeSet NodeId) (n : NodeId × TreeNode) :
    Act μ (NodeId × TreeNode) := do
  let kept := n.2.children.filter (written.contains ·)
  if kept.length = n.2.children.length then pure n
  else
    Act.tell (.childVanished n.1 (n.2.children.length - kept.length))
    pure (n.1, { n.2 with children := kept })

/-- The nodes with only those children that were written out. -/
def dropDangling (nodes : List (NodeId × TreeNode)) : Act μ (List (NodeId × TreeNode)) :=
  Act.each nodes (keepWritten (.ofList (nodes.map Prod.fst)))

/-- The full update of the subtree under a key; none if its root is unavailable. -/
def buildTreeUpdate (t : TreeId) (root : NodeKey) : Act μ (Option Update) := do
  Act.tell (.span .treeUpdate)
  let nodes ← visit t Adapter.levels root
  if nodes.isEmpty then
    Act.tell (.rootUnavailable root.toRaw)
    pure none
  else
    let nodes ← dropDangling nodes
    Act.tell (.updateBuilt root.toRaw nodes.length)
    pure (some ⟨nodes, some root.toRaw, root.toRaw⟩)

/-- The update of one node, with the focus on `focus` or else on the node itself. -/
def buildNodeUpdate (t : TreeId) (focus : Option NodeKey) (k : NodeKey) :
    Act μ (Option Update) := do
  match (← getTree t).get? k with
  | none => pure none
  | some a =>
    match ← a.build with
    | none => pure none
    | some node => pure (some ⟨[(k.toRaw, node)], none, (focus.getD k).toRaw⟩)

end TableAccess
