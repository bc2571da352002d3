import TableAccess.Proofs.LawfulNodes

/-!
# Requests

What users ask of trees, bridges and nodes, also of nodes that have left their tree. Every request is
made of deeds, so that whatever calls are under way, and however they come between each other, the
moments they lead through are moments that can come to be; and at every such moment the nodes of a
tree and its index agree.

## The model

* `Request` — one request, `Request.act` what it does, `Request.Fits` that the nodes and tables it
  names are there to be named.
* `Request.lawful` — every request is made of deeds.
* `nodes_and_identities_correspond` — the main statement.
-/

namespace TableAccess

variable {μ : Type} {m : Moment μ}

/-- What a user asks for. -/
inductive Request where
  /-- A tree to attach a table. -/
  | attachTo (t : TreeId) (table : TableId)
  /-- A bridge to attach a table. -/
  | attach (b : BridgeId) (table : TableId)
  /-- A table node for a row. -/
  | row (a : Adapter) (row : Nat)
  /-- A table node for a column. -/
  | column (a : Adapter) (column : Nat)
  /-- A table node for a cell. -/
  | cell (a : Adapter) (row column : Nat)
  /-- A table node for all rows. -/
  | rows (a : Adapter)
  /-- A table node for all columns. -/
  | columns (a : Adapter)
  /-- A node for its children. -/
  | children (a : Adapter)
  /-- A node for its children in the serialized tree. -/
  | treeChildren (a : Adapter)
  /-- A node for an attribute. -/
  | answer (a : Adapter) (attr : Attribute)
  /-- A node to be written out. -/
  | build (a : Adapter)
  /-- A bridge for an attribute of the node with an id. -/
  | query (b : BridgeId) (id : NodeId) (attr : Attribute)
  /-- A tree for the full update under a key. -/
  | treeUpdate (t : TreeId) (k : NodeKey)
  /-- A bridge for the update of one node. -/
  | nodeUpdate (b : BridgeId) (k : NodeKey)
  /-- A bridge for the full update of its root. -/
  | initialTree (b : BridgeId)
  /-- A bridge to do something to the node with an id. -/
  | ignoreAction (b : BridgeId) (id : NodeId) (action : Action)
  /-- A tree for its outline. -/
  | outline (t : TreeId) (o : Outline.Options)
  /-- A node for the outline of what is below it. -/
  | outlineUnder (a : Adapter) (o : Outline.Options)
  /-- A tree to take a table out. -/
  | detach (t : TreeId) (k : NodeKey)
  /-- A tree to take out all tables that are not valid any more. -/
  | prune (t : TreeId)
deriving DecidableEq, Repr

/-- An act whose value is of no interest. -/
def Act.forget {α : Type} (act : Act μ α) : Act μ Unit := do
  let _ ← act

theorem Act.Meets.forget {α : Type} {act : Act μ α} {Q : Moment μ → α → Prop}
    (h : act.Meets m Q) : act.forget.Lawful m :=
  h.next fun _ _ _ _ _ => .pure trivial

namespace Request

/-- What a request does; what it answers is left out. -/
def act : Request → Act μ Unit
  | .attachTo t table => Act.forget (attachTable t table)
  | .attach b table => Act.forget (Bridge.attach b table)
  | .row a r => Act.forget (Adapter.Table.row a r)
  | .column a c => Act.forget (Adapter.Table.column a c)
  | .cell a r c => Act.forget (Adapter.Table.cell a r c)
  | .rows a => Act.forget (Adapter.Table.rows a)
  | .columns a => Act.forget (Adapter.Table.columns a)
  | .children a => Act.forget a.children
  | .treeChildren a => Act.forget a.treeChildren
  | .answer a attr => Act.forget (a.answer attr)
  | .build a => Act.forget a.build
  | .query b id attr => Act.forget (Bridge.query b id attr)
  | .treeUpdate t k => Act.forget (buildTreeUpdate t k)
  | .nodeUpdate b k => Act.forget (Bridge.nodeUpdate b k)
  | .initialTree b => Act.forget (Bridge.initialTree b)
  | .ignoreAction b id action => Bridge.ignoreAction b id action
  | .outline t o => Act.forget (outlineAll o t)
  | .outlineUnder a o => Act.forget (TableAccess.outlineUnder o a)
  | .detach t k => Act.forget (detachTable t k)
  | .prune t => Act.forget (TableAccess.prune t)

/-- The node that is asked. -/
def node? : Request → Option Adapter
  | .row a _ | .column a _ | .cell a _ _ | .rows a | .columns a | .children a | .treeChildren a
  | .answer a _ | .build a | .outlineUnder a _ => some a
  | _ => none

/-- Only the node of a table has rows, columns and cells to give. -/
def OfTable : Request → Prop
  | .row a _ | .column a _ | .cell a _ _ | .rows a | .columns a => a.role = .table
  | _ => True

/-- The table that is to be attached. -/
def table? : Request → Option TableId
  | .attachTo _ table | .attach _ table => some table
  | _ => none

/-- The node that is asked was made at some time, whether or not it is still in its tree, and the
table that is to be attached was made. -/
structure Fits (request : Request) (m : Moment μ) : Prop where
  /-- The node was made. -/
  node : ∀ a, request.node? = some a → .made a ∈ m.past
  /-- It is of the right kind. -/
  kind : request.OfTable
  /-- The table was made. -/
  table : ∀ table, request.table? = some table → table < m.world.tables.length

/-- Every request is made of deeds. -/
theorem lawful (h : m.Lived) {request : Request} (fits : request.Fits m) :
    request.act.Lawful m := by
  cases request with
  | attachTo t table => exact (attachTable_meets h (fits.table table rfl)).forget
  | attach b table => exact (Bridge.attach_meets h (fits.table table rfl)).forget
  | row a r =>
    have isTable := Identity.eq_of_role_table fits.kind
    exact (Adapter.Table.row_meets h (fits.node a rfl) isTable r).forget
  | column a c =>
    have isTable := Identity.eq_of_role_table fits.kind
    exact (Adapter.Table.column_meets h (fits.node a rfl) isTable c).forget
  | cell a r c =>
    have isTable := Identity.eq_of_role_table fits.kind
    exact (Adapter.Table.cell_meets h (fits.node a rfl) isTable r c).forget
  | rows a =>
    have isTable := Identity.eq_of_role_table fits.kind
    exact (Adapter.Table.rows_meets h (fits.node a rfl) isTable).forget
  | columns a =>
    have isTable := Identity.eq_of_role_table fits.kind
    exact (Adapter.Table.columns_meets h (fits.node a rfl) isTable).forget
  | children a => exact (Adapter.children_meets h (fits.node a rfl)).forget
  | treeChildren a => exact (Adapter.treeChildren_meets h (fits.node a rfl)).forget
  | answer a attr => exact (Adapter.answer_lawful h (fits.node a rfl) attr).forget
  | build a => exact (Adapter.build_lawful h (fits.node a rfl)).forget
  | query b id attr => exact (Bridge.query_lawful h id attr).forget
  | treeUpdate t k => exact (buildTreeUpdate_lawful h k).forget
  | nodeUpdate b k => exact (Bridge.nodeUpdate_lawful h k).forget
  | initialTree b => exact (Bridge.initialTree_lawful h).forget
  | ignoreAction b id action => exact Bridge.ignoreAction_lawful id action
  | outline t o => exact (outlineAll_lawful h o).forget
  | outlineUnder a o => exact (outlineUnder_lawful h o (fits.node a rfl)).forget
  | detach t k => exact (detachTable_lawful k).forget
  | prune t => exact (prune_lawful h).forget

end Request

/-! ### Nodes and identities -/

/-- No key was given to two nodes of a tree. -/
def Moment.GivenOnce (m : Moment μ) (t : TreeId) : Prop :=
  ∀ a b : Adapter, .made a ∈ m.past → .made b ∈ m.past → a.tree = t → b.tree = t → a.key = b.key →
    a = b

/-- The nodes of a tree and its index are in exact correspondence. -/
structure Moment.Corresponds (m : Moment μ) (t : TreeId) (tree : Tree) : Prop where
  /-- A node knows the key it is stored under. -/
  key : ∀ {k : NodeKey} {a : Adapter}, tree.get? k = some a → a.key = k
  /-- The index leads from an identity to the node that stands for it, and nowhere else. -/
  index : ∀ {i : Identity} {k : NodeKey},
    tree.index[i]? = some k ↔ ∃ a, tree.get? k = some a ∧ a.identity = i
  /-- No two nodes stand for the same. -/
  alone : ∀ {k k' : NodeKey} {a b : Adapter}, tree.get? k = some a → tree.get? k' = some b →
    a.identity = b.identity → k = k'
  /-- A node is of the kind of what it stands for. -/
  kind : ∀ {k : NodeKey} {a : Adapter}, tree.get? k = some a → a.role = a.identity.role
  /-- The parent of a cell is the row with its number, of its table. -/
  parent : ∀ {k table : NodeKey} {a : Adapter} {row column : Nat}, tree.get? k = some a →
    a.identity = .cell table row column →
    ∃ b, a.parent = some b.key ∧ tree.get? b.key = some b ∧ b.identity = .row table row
  /-- All nodes of one table have one peer, unless the arena has given the key of a table again. -/
  peer : m.GivenOnce t → ∀ {k k' : NodeKey} {a b : Adapter}, tree.get? k = some a →
    tree.get? k' = some b → a.tableKey = b.tableKey → a.peer = b.peer
  /-- It gives no key again until the 32-bit versions of the slots have come round. -/
  once : m.removals t < 2 ^ 31 → m.GivenOnce t

/-- The parent of a cell that is in a coherent tree is in it too. -/
theorem Tree.Coherent.row_of_cell {t : TreeId} {tree : Tree} {k table : NodeKey} {a : Adapter}
    {row column : Nat} (h : tree.Coherent t) (ha : tree.get? k = some a)
    (isCell : a.identity = .cell table row column) :
    ∃ b, a.parent = some b.key ∧ tree.get? b.key = some b ∧ b.identity = .row table row := by
  rcases h.parent ha with ⟨-, isTable⟩ | ⟨p, parent, isParent⟩
  · rw [isCell] at isTable
    cases isTable
  · rw [isCell] at isParent
    cases isParent with
    | @cell _ _ b hb =>
      obtain ⟨stored, identity⟩ := h.indexed.find?_eq_some_iff.1 hb
      exact ⟨b, parent, stored, identity⟩

/-- Nodes that name the same table have the peer of that table's node. -/
theorem Moment.Keyed.same_peer {a b : Adapter} {t : TreeId} (h : m.Keyed) (once : m.GivenOnce t)
    (ha : .made a ∈ m.past) (hb : .made b ∈ m.past) (here : a.tree = t) (there : b.tree = t)
    (same : a.tableKey = b.tableKey) : a.peer = b.peer := by
  obtain ⟨a', made, -, key, tree, peer⟩ := h.family ha
  obtain ⟨b', made', -, key', tree', peer'⟩ := h.family hb
  have one : a' = b' := by
    refine once a' b' made made' (tree.trans here) (tree'.trans there) ?_
    rw [key, key']
    exact same
  rw [← peer, ← peer', one]

theorem Moment.Lived.corresponds {t : TreeId} {tree : Tree} (h : m.Lived)
    (ht : m.world.trees[t]? = some tree) : m.Corresponds t tree where
  key ha := (h.coherent ht).indexed.key ha
  index := (h.coherent ht).indexed.index
  alone := (h.coherent ht).indexed.eq_of_identity
  kind _ := rfl
  parent ha isCell := (h.coherent ht).row_of_cell ha isCell
  peer once {k k' a b} ha hb same := by
    have here : a.tree = t := (h.coherent ht).here ha
    have there : b.tree = t := (h.coherent ht).here hb
    exact h.keyed.same_peer once (h.keyed.stored ht ha) (h.keyed.stored ht hb) here there same
  once few a b ha hb here there := h.keyed.once (here ▸ few) ha hb (here.trans there.symm)

/-- Whatever was asked, through nodes in a tree or nodes that have left it, and however the threads
that were asked came between each other: what is asked next is made of deeds again, and the nodes of
every tree and its index correspond. -/
theorem nodes_and_identities_correspond (h : m.Lived) :
    (∀ request : Request, request.Fits m → request.act.Lawful m) ∧
      ∀ {t : TreeId} {tree : Tree}, m.world.trees[t]? = some tree → m.Corresponds t tree :=
  ⟨fun _ fits => Request.lawful h fits, fun ht => h.corresponds ht⟩

/-- So it is once the cell of a table was asked for. -/
theorem nodes_and_identities_correspond_cell : ∃ (m : Moment Unit) (tree : Tree) (a : Adapter),
    m.Lived ∧ m.world.trees[0]? = some tree ∧ tree.get? a.key = some a ∧
      a.identity = .cell (Arena.keyAt 0 1) 0 0 ∧ m.Corresponds 0 tree := by
  obtain ⟨m, lived, e, -⟩ := Moment.lived_of_cell () (.client 0)
  have known := lived.keyed.stored (t := 0) (k := Arena.keyAt 0 1) (by rw [e]; rfl) rfl
  obtain ⟨m', goes, -, -, tree, ht, found⟩ := (cellNode_meets lived known 0 0).ends (by rw [e]; rfl)
  have lived' := lived.goes goes
  obtain ⟨stored, identity⟩ := (lived'.coherent ht).indexed.find?_eq_some_iff.1 found
  have own := (lived'.coherent ht).indexed.key stored
  exact ⟨m', tree, _, lived', ht, own ▸ stored, identity,
    (nodes_and_identities_correspond lived').2 ht⟩

end TableAccess
