import TableAccess.Peer

/-!
# Trees

A tree owns the nodes of the tables attached to it. Attaching a table makes its node; rows, columns
and cells get theirs when first asked for, and asking again finds the same node by its identity.
Detaching a table takes all nodes of the table out.

## The model

* `Tree.get?`, `Tree.find?` — the node under a key, and the node of an identity.
* `obtain`, `rowNode`, `columnNode`, `cellNode` — a node found or made.
* `attachTable`, `detachTable`, `prune` — tables come and go.
-/

namespace TableAccess

namespace Tree

/-- A tree without nodes. -/
def empty (context : ContextId) : Tree := ⟨context, .empty, ∅, true⟩

/-- The node under a key. -/
def get? (t : Tree) (k : NodeKey) : Option Adapter := t.nodes.get? k

/-- The node of an identity. -/
def find? (t : Tree) (i : Identity) : Option Adapter := t.index[i]?.bind t.get?

/-- The table nodes, in order of their slots. -/
def tables (t : Tree) : List Adapter :=
  t.nodes.values.filter fun a => a.identity.role = .table

/-- How many nodes there are. -/
def size (t : Tree) : Nat := t.nodes.size

/-- The tree with one more node, under the next key of its arena. -/
def add (t : Tree) (a : Adapter) : Tree :=
  { t with nodes := t.nodes.insert a, index := t.index.insert a.identity a.key }

/-- The keys of the nodes that belong to a table. -/
def keysOf (t : Tree) (table : NodeKey) : List NodeKey :=
  (t.nodes.toList.filter fun (_, a) => a.identity.tableKey = table).map Prod.fst

/-- The tree without one node. -/
def remove (t : Tree) (k : NodeKey) : Tree :=
  match t.get? k with
  | none => t
  | some a => { t with nodes := t.nodes.erase k, index := t.index.erase a.identity }

/-- The tree without the nodes that belong to a table. -/
def removeTable (t : Tree) (table : NodeKey) : Tree := (t.keysOf table).foldl remove t

end Tree

variable {μ : Type}

/-- The panic of a tree that cannot take one more node. -/
def treeFull : Panic := ⟨"no room for another node"⟩

/-- A tree, whether a bridge still holds it or not. -/
def getTree (t : TreeId) : Act μ Tree := do
  match (← get).trees[t]? with
  | some tree => pure tree
  | none => throw ⟨"no such tree"⟩

/-- The node of an identity, made if there is none. -/
def obtain (t : TreeId) (i : Identity) (parent : Option NodeKey) (peer : PeerId) :
    Act μ Adapter := do
  let tree ← getTree t
  match tree.find? i with
  | some a => pure a
  | none =>
    match tree.nodes.nextKey? with
    | none => throw treeFull
    | some k =>
      let a : Adapter := ⟨k, i, parent, peer, t⟩
      modify (·.modifyTree t (·.add a))
      Act.tell (.adapterCreated k.toRaw i)
      pure a

/-- The node of a row. -/
def rowNode (t : TreeId) (table : NodeKey) (peer : PeerId) (row : Nat) : Act μ Adapter :=
  obtain t (.row table row) (some table) peer

/-- The node of a column. -/
def columnNode (t : TreeId) (table : NodeKey) (peer : PeerId) (column : Nat) : Act μ Adapter :=
  obtain t (.column table column) (some table) peer

/-- The node of a cell. Its parent is the node of its row, which comes first. -/
def cellNode (t : TreeId) (table : NodeKey) (peer : PeerId) (row column : Nat) :
    Act μ Adapter := do
  let parent ← rowNode t table peer row
  obtain t (.cell table row column) (some parent.key) peer

/-- A node stands for a table that is not known to be gone. -/
def standsFor (w : World μ) (table : TableId) (a : Adapter) : Bool :=
  match w.peers[a.peer]? with
  | some peer => peer.table == table && !peer.invalidated
  | none => false

/-- The node of a table, made if the table is not attached or was found gone. -/
def attachTable (t : TreeId) (table : TableId) : Act μ Adapter := do
  let tree ← getTree t
  let w ← get
  match tree.tables.find? (standsFor w table) with
  | some a => pure a
  | none =>
    let peer := w.peers.length
    match tree.nodes.nextKey? with
    | none => throw treeFull
    | some k =>
      let a : Adapter := ⟨k, .table k, none, peer, t⟩
      modify fun w => { w with peers := w.peers ++ [⟨table, tree.context, false⟩] }
      modify (·.modifyTree t (·.add a))
      Act.tell (.tableAttached k.toRaw)
      pure a

/-- Takes a table and its nodes out of a tree; answers how many nodes that were. -/
def detachTable (t : TreeId) (table : NodeKey) : Act μ Nat := do
  let tree ← getTree t
  let removed := (tree.keysOf table).length
  modify (·.modifyTree t (·.removeTable table))
  if 0 < removed then Act.tell (.tableDetached table.toRaw removed)
  pure removed

/-- Takes out a table that is not valid any more. -/
def pruneTable (t : TreeId) (table : Adapter) : Act μ Nat := do
  if ← Peer.isValid table.peer then pure 0 else detachTable t table.key

/-- Takes out every table that is not valid any more, one after the other; answers how many nodes
that were. -/
def prune (t : TreeId) : Act μ Nat := do
  let tree ← getTree t
  let counts ← Act.each tree.tables (pruneTable t)
  pure (counts.foldl (· + ·) 0)

end TableAccess
