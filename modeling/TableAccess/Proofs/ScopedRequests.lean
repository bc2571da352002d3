import TableAccess.Proofs.Requests
import TableAccess.Proofs.Scopes

/-!
# Requests that stay in a scope

If all deeds that can come up in a scope keep to a conduct, every request that stays in the scope
does, whatever tables answer and contexts make of it.

## The model

* `Scope.Node`, `Scope.Within` — nodes and identities of a scope.
* `Scope.Visits`, `Scope.Deeds` — all that can come up keeps to a conduct, as long as tables are only
  looked at, and also when they come and go.
* `Scope.Admits` — a request stays in a scope; `Visits.request`, `Deeds.request` — then it keeps to the
  conduct.
* `Scope.Open`, `Scope.Steps` — everything may come up; what is to be known then.
-/

namespace TableAccess

variable {μ α β : Type}

/-- The panic of a tree that is not there. -/
def noTree : Panic := ⟨"no such tree"⟩

/-- The panic of a bridge that is not there. -/
def noBridge : Panic := ⟨"no such bridge"⟩

/-- With a request no table is attached, and none is taken out. -/
def Request.Looks : Request → Prop
  | .attachTo _ _ | .attach _ _ | .detach _ _ | .prune _ => False
  | _ => True

namespace Scope

/-- A row, column or cell may get a node. -/
def Within (S : Scope) (p : PeerId) : Identity → Prop
  | .table _ => False
  | .row _ row => S.Rows p row
  | .column _ column => S.Columns p column
  | .cell _ row column => S.Rows p row ∧ S.Columns p column

/-- What is read of a table is none itself. -/
theorem Within.ne_table {S : Scope} {p : PeerId} {i : Identity} (within : S.Within p i) :
    i.role ≠ .table := by
  cases i with
  | table => exact within.elim
  | _ => nofun

/-- A node found in a tree, through which others may be reached. -/
structure Node (S : Scope) (t : TreeId) (a : Adapter) : Prop where
  /-- It belongs to a table. -/
  family : S.Family a.tree a.tableKey a.peer
  /-- So do those that are made under its key, if it is the node of a table. -/
  own : a.role = .table → S.Family a.tree a.key a.peer
  /-- Any other was allowed to be made. -/
  within : a.role = .table ∨ S.Within a.peer a.identity
  /-- It may be looked up where others may. -/
  reach : ∀ {k}, S.Reaches t k → S.Reaches t a.key
  /-- What is made through it may be looked up there too. -/
  shares : ∀ {k}, S.Reaches t k ↔ S.Reaches a.tree k

namespace Node

variable {S : Scope} {t : TreeId} {a : Adapter}

theorem row {k : NodeKey} {row : Nat} (node : S.Node t a) (e : a.identity = .row k row) :
    S.Rows a.peer row := by
  have within := node.within
  rw [Adapter.role, e] at within
  exact within.resolve_left fun isTable => by cases isTable

theorem column {k : NodeKey} {column : Nat} (node : S.Node t a)
    (e : a.identity = .column k column) : S.Columns a.peer column := by
  have within := node.within
  rw [Adapter.role, e] at within
  exact within.resolve_left fun isTable => by cases isTable

end Node

/-- All that can come up while tables are looked at keeps to a conduct. -/
structure Visits (S : Scope) (C : Conduct μ) (P : Panic → Prop) (T : Panic → Prop := fun _ => True) :
    Prop extends S.Reads C P T where
  /-- What a table is found to be on the thread of its context is decisive. -/
  judges : ∀ {w₀ w : World μ} {p t c}, C.Along w₀ w → w.thread = .toolkit c → S.Refers p t c →
    S.Judges p t w
  /-- So it is if the table is not there any more. -/
  absent : ∀ {w₀ w : World μ} {p peer}, C.Along w₀ w → S.Peers p → w.peers[p]? = some peer →
    w.table? peer.table = none → S.Gone p
  /-- A tree is there. -/
  planted : ∀ {w₀ w : World μ} {t : TreeId}, C.Along w₀ w → S.Planted t → w.trees[t]? = none →
    P noTree
  /-- So is the tree of a family. -/
  home : ∀ {t k p}, S.Family t k p → S.Planted t
  /-- Its nodes are read through its peer. -/
  reader : ∀ {t k p}, S.Family t k p → S.Peers p
  /-- A tree whose nodes may be looked up is there. -/
  grown : ∀ {t k}, S.Reaches t k → S.Planted t
  /-- A node is found by its key. -/
  stored : ∀ {w₀ w : World μ} {t : TreeId} {tree : Tree} {k a}, C.Along w₀ w → S.Reaches t k →
    w.trees[t]? = some tree → tree.get? k = some a → S.Node t a
  /-- A node is found by what it stands for. -/
  found : ∀ {w₀ w : World μ} {t : TreeId} {tree : Tree} {p i a}, C.Along w₀ w →
    S.Family t i.tableKey p → w.trees[t]? = some tree → tree.find? i = some a → S.Node t a
  /-- The tables of a tree are found. -/
  listed : ∀ {w₀ w : World μ} {t : TreeId} {tree : Tree} {a}, C.Along w₀ w →
    (∀ k, S.Reaches t k) → w.trees[t]? = some tree → a ∈ tree.tables → S.Node t a
  /-- A node is added for a row, column or cell. -/
  adds : ∀ {w₀ w : World μ} {t : TreeId} {tree : Tree} {p i k}, C.Along w₀ w →
    S.Family t i.tableKey p → S.Within p i → w.trees[t]? = some tree → tree.find? i = none →
    tree.nodes.nextKey? = some k →
      (∀ parent, (tree.Indexed → tree.IsParent i parent) →
        C.Along w₀ (w.modifyTree t (·.add ⟨k, i, some parent, p, t⟩))) ∧
        ∀ k', S.Reaches t k' → S.Reaches t k
  /-- There is no room for it. -/
  full : ∀ {w₀ w : World μ} {t : TreeId} {tree : Tree} {p i}, C.Along w₀ w →
    S.Family t i.tableKey p → S.Within p i → w.trees[t]? = some tree → tree.find? i = none →
    tree.nodes.nextKey? = none → P treeFull
  /-- Rows that are counted may get nodes, -/
  rows : ∀ {p n}, S.Answers p .rowCount n → ∀ row < n, S.Rows p row
  /-- and so may columns. -/
  columns : ∀ {p n}, S.Answers p .columnCount n → ∀ column < n, S.Columns p column
  /-- A list of rows finds no room, -/
  rowsOverflow : ∀ {t k p n}, S.Family t k p → S.Answers p .rowCount n → ¬Room.Fits .node n →
    P Room.overflow
  /-- nor does one of columns, -/
  columnsOverflow : ∀ {t k p n}, S.Family t k p → S.Answers p .columnCount n →
    ¬Room.Fits .node n → P Room.overflow
  /-- nor does one of both. -/
  childrenOverflow : ∀ {t k p rows columns}, S.Family t k p → S.Answers p .rowCount rows →
    S.Answers p .columnCount columns → ¬Room.Fits .anyNode (rows + columns) → P Room.overflow
  /-- A bridge is there. -/
  spans : ∀ {w₀ w : World μ} {b : BridgeId}, C.Along w₀ w → S.Spans b →
    match w.bridges[b]? with
    | none => P noBridge
    | some bridge => S.Over b bridge.tree ∧ ∀ k, bridge.root = some k → S.Roots b k
  /-- So is its tree. -/
  spanned : ∀ {b t}, S.Over b t → S.Planted t

/-- All that can come up keeps to a conduct, also when tables come and go. -/
structure Deeds (S : Scope) (C : Conduct μ) (P : Panic → Prop) (T : Panic → Prop := fun _ => True) :
    Prop extends S.Visits C P T where
  /-- A table that may be taken for invalid may be taken out. -/
  invalid : ∀ {w₀ w : World μ} {t : TreeId} {tree : Tree} {a}, C.Along w₀ w →
    (∀ k, S.Reaches t k) → w.trees[t]? = some tree → a ∈ tree.tables → S.Invalid a.peer →
      S.Detachable t a.key
  /-- A table is taken out. -/
  detaches : ∀ {w₀ w : World μ} {t k}, C.Along w₀ w → S.Detachable t k →
    C.Along w₀ (w.modifyTree t (·.removeTable k))
  /-- A table is attached. -/
  attaches : ∀ {w₀ w : World μ} {t : TreeId} {tree : Tree} {table k}, C.Along w₀ w →
    S.Attachable t table → w.trees[t]? = some tree →
    tree.tables.find? (standsFor w table) = none → tree.nodes.nextKey? = some k →
      C.Along w₀ (World.modifyTree { w with peers := w.peers ++ [⟨table, tree.context, false⟩] } t
        (·.add ⟨k, .table k, none, w.peers.length, t⟩))
  /-- It may become a root. -/
  becomes : ∀ {b t table}, S.Attachable t table → ∀ k, S.Roots b k
  /-- There is no room for it. -/
  attachesFull : ∀ {w₀ w : World μ} {t : TreeId} {tree : Tree} {table}, C.Along w₀ w →
    S.Attachable t table → w.trees[t]? = some tree →
    tree.tables.find? (standsFor w table) = none → tree.nodes.nextKey? = none → P treeFull
  /-- A bridge gets a root. -/
  roots : ∀ {w₀ w : World μ} {b : BridgeId} {k : NodeKey}, C.Along w₀ w → S.Spans b → S.Roots b k →
    C.Along w₀ { w with bridges := w.bridges.modify b ({ · with root := some k }) }

namespace Visits

variable {S : Scope} {C : Conduct μ} {P T : Panic → Prop} {t : TreeId} {k : NodeKey} {p : PeerId}
  {a : Adapter} {V : α → Prop} (h : S.Visits C P T)

include h

/-! ### Readings -/

theorem query (may : S.Peers p) {read : Inquiry (Except Unavailable α)}
    (all : read.AllOf (S.Answers p) (Reading.Reports V))
    (steady : Reading.Steady (S.Answers p) T read := by exact Reading.steady_unknown _) :
    (Peer.query p read).Keeps C P (S.Told T p V) :=
  ⟨fun along => h.toReads.query along may
    (fun hp here => h.judges along here (h.refers along may hp))
    (fun found here refers => h.judges (h.plain.along found) here refers) all steady⟩

theorem isValid (may : S.Peers p) :
    (Peer.isValid p).Keeps C P fun valid => valid = false → S.Invalid p :=
  ⟨fun along => h.toReads.isValid along may (fun hp gone => h.absent along may hp gone)
    (fun hp here => h.judges along here (h.refers along may hp))
    fun found here refers => h.judges (h.plain.along found) here refers⟩

theorem tell (e : Event) (panics : e.OfPanic → ∃ p, T p := by nofun)
    (other : e ≠ .peerInvalidated := by nofun) : (Act.tell e).Keeps C P fun _ => True :=
  ⟨fun along => ⟨h.plain.told along e panics other, trivial⟩⟩

theorem degrade (question : String) {r : Except Unavailable α} (told : S.Told T p V r) :
    (a.degrade question r).Keeps C P fun value => ∀ v, value = some v → V v := by
  unfold Adapter.degrade
  cases r with
  | ok v =>
    refine .pure fun v' same => ?_
    cases same
    exact told
  | error u =>
    refine (h.tell _ fun ofPanic => ?_).bind fun _ _ => .pure fun v same => by cases same
    cases ofPanic
    exact told.2 rfl

/-- What a node reads from its table. -/
theorem read (may : S.Peers a.peer) (question : String)
    {reading : Inquiry (Except Unavailable α)}
    (all : reading.AllOf (S.Answers a.peer) (Reading.Reports V))
    (steady : Reading.Steady (S.Answers a.peer) T reading := by exact Reading.steady_unknown _) :
    (a.read question reading).Keeps C P fun value => ∀ v, value = some v → V v :=
  (h.query may all steady).bind fun _ told => h.degrade question told

omit h in
theorem hasTree : (a.hasTree : Act μ Bool).Keeps C P fun _ => True :=
  .get fun along => .pure along trivial

theorem parentNode : (a.parentNode : Act μ _).Keeps C P fun _ => True := by
  unfold Adapter.parentNode
  split
  · exact .pure trivial
  · refine .bind ⟨fun along => h.toReads.isInvalidated along⟩ fun invalidated _ => ?_
    split
    · exact .pure trivial
    · exact .get fun along => .pure along trivial

/-! ### Nodes found or made -/

/-- Looking for a tree, from where the thread has come to, -/
theorem getTreeFrom (along : C.Along w₀ w) (planted : S.Planted t) {f : Tree → Act μ α}
    (rest : ∀ {tree}, w.trees[t]? = some tree → (f tree).KeepsFrom C w₀ w P V) :
    (getTree t >>= f).KeepsFrom C w₀ w P V := by
  unfold TableAccess.getTree
  rw [bind_assoc]
  refine .get ?_
  cases ht : w.trees[t]? with
  | none => exact .throw along (h.planted along planted ht)
  | some tree => exact rest ht

/-- and from anywhere. -/
theorem getTree (planted : S.Planted t) {f : Tree → Act μ α}
    (rest : ∀ {w₀ w tree}, C.Along w₀ w → w.trees[t]? = some tree → (f tree).KeepsFrom C w₀ w P V) :
    (getTree t >>= f).Keeps C P V :=
  ⟨fun along => h.getTreeFrom along planted fun ht => rest along ht⟩

/-- The node of a row, column or cell is found or made, and leads to its key. -/
theorem obtain {i : Identity} {parent : NodeKey} {f : Adapter → Act μ α} (along : C.Along w₀ w)
    (family : S.Family t i.tableKey p) (within : S.Within p i)
    (isParent : ∀ {tree}, w.trees[t]? = some tree → tree.Indexed → tree.IsParent i parent)
    (rest : ∀ {w a}, C.Along w₀ w → S.Node t a → (∀ {tree}, w.trees[t]? = some tree →
      tree.Indexed → ∃ b, tree.find? i = some b ∧ b.key = a.key) → (f a).KeepsFrom C w₀ w P V) :
    (TableAccess.obtain t i (some parent) p >>= f).KeepsFrom C w₀ w P V := by
  unfold TableAccess.obtain
  rw [bind_assoc]
  refine h.getTreeFrom along (h.home family) fun {tree} ht => ?_
  cases found : tree.find? i with
  | some a =>
    refine rest along (h.found along family ht found) fun ht' _ => ?_
    cases ht.symm.trans ht'
    exact ⟨a, found, rfl⟩
  | none =>
    dsimp only
    cases next : tree.nodes.nextKey? with
    | none => exact .throw along (h.full along family within ht found next)
    | some k =>
      obtain ⟨adds, reach⟩ := h.adds along family within ht found next
      simp only [bind_assoc, pure_bind]
      refine .modify (.tell (rest (h.plain.told (adds parent (isParent ht)) _)
        ⟨family, fun isTable => absurd isTable within.ne_table, .inr within, reach _, Iff.rfl⟩
        fun {tree'} ht' indexed => ?_))
      · -- the index has the new key, and a sound index leads to a node that lies there
        rw [World.tell, World.getElem?_modifyTree ht, if_pos rfl] at ht'
        cases ht'
        have entry := Tree.index_add (t := tree) (a := ⟨k, i, some parent, p, t⟩) i
        rw [if_pos rfl] at entry
        obtain ⟨b, stored, same⟩ := indexed.index.1 entry
        exact ⟨b, same ▸ indexed.find?_identity stored, indexed.key stored⟩

/-- The node of a row or a column is found or made. -/
theorem obtainPart {i : Identity} {parent : NodeKey} (family : S.Family t i.tableKey p)
    (within : S.Within p i) (isParent : ∀ tree : Tree, tree.IsParent i parent) :
    (TableAccess.obtain t i (some parent) p).Keeps C P fun a => S.Node t a := by
  refine ⟨fun along => ?_⟩
  rw [← bind_pure (TableAccess.obtain _ _ _ _)]
  exact h.obtain along family within (fun _ _ => isParent _) fun along node _ => .pure along node

theorem rowNode (family : S.Family t k p) {row : Nat} (there : S.Rows p row) :
    (TableAccess.rowNode t k p row : Act μ _).Keeps C P fun a => S.Node t a :=
  h.obtainPart (i := .row k row) family there fun _ => .row k row

theorem columnNode (family : S.Family t k p) {column : Nat} (there : S.Columns p column) :
    (TableAccess.columnNode t k p column : Act μ _).Keeps C P fun a => S.Node t a :=
  h.obtainPart (i := .column k column) family there fun _ => .column k column

/-- The node of a cell is made under the node of its row. -/
theorem cellNode (family : S.Family t k p) {row column : Nat} (there : S.Rows p row)
    (there' : S.Columns p column) :
    (TableAccess.cellNode t k p row column : Act μ _).Keeps C P fun a => S.Node t a := by
  refine ⟨fun along => ?_⟩
  unfold TableAccess.cellNode TableAccess.rowNode
  refine h.obtain (i := .row k row) along family there (fun _ _ => .row k row) fun along _ found => ?_
  rw [← bind_pure (TableAccess.obtain _ _ _ _)]
  refine h.obtain (i := .cell k row column) along family ⟨there, there'⟩ (fun ht indexed => ?_)
    fun along node _ => .pure along node
  obtain ⟨b, found, key⟩ := found ht indexed
  exact key ▸ .cell found column

omit h in
/-- Nodes that are made once their number is known, while a bridge holds the tree. -/
theorem counted {item : Room.Item} {count : Act μ (Option Nat)} {make : Nat → Act μ Adapter}
    {R : Nat → Prop} (counts : count.Keeps C P fun value => ∀ n, value = some n → R n)
    (overflows : ∀ n, R n → ¬Room.Fits item n → P Room.overflow)
    (makes : ∀ n, R n → ∀ i < n, (make i).Keeps C P fun b => S.Node a.tree b) :
    Act.Keeps C (do
      match ← count, ← a.hasTree with
      | some n, true => do
        Act.makeRoom item n
        Act.each (List.range n) make
      | _, _ => pure []) P fun nodes => ∀ b ∈ nodes, S.Node a.tree b := by
  refine counts.bind fun value known => hasTree.bind fun held _ => ?_
  split
  · rename_i n
    have counted := known n rfl
    refine (Act.Keeps.makeRoom (overflows n counted)).bind fun _ _ => .each fun i mem => ?_
    exact makes n counted i (List.mem_range.1 mem)
  · exact .pure fun b mem => by cases mem

/-! ### What nodes answer -/

section Node

variable (node : S.Node t a)

include node

/-- The peer of a node may be asked. -/
theorem peer : S.Peers a.peer := h.reader node.family

theorem shape : (Adapter.Table.shape a : Act μ _).Keeps C P fun value => ∀ s, value = some s →
    S.Answers a.peer .rowCount s.rows ∧ S.Answers a.peer .columnCount s.columns :=
  h.read (h.peer node) _ Reading.reports_shape Reading.steady_shape

theorem rowCells {row : Nat} (there : S.Rows a.peer row) :
    (Adapter.Row.cells a row).Keeps C P fun nodes => ∀ b ∈ nodes, S.Node a.tree b :=
  counted (h.read (h.peer node) _ Reading.reports_columnsOfRow (Reading.steady_ofRow .question))
    (fun _ counted => h.columnsOverflow node.family counted.2)
    fun _ counted column lt => h.cellNode node.family there (h.columns counted.2 column lt)

theorem columnCells {column : Nat} (there : S.Columns a.peer column) :
    (Adapter.Column.cells a column).Keeps C P fun nodes => ∀ b ∈ nodes, S.Node a.tree b :=
  counted (h.read (h.peer node) _ Reading.reports_rowsOfColumn (Reading.steady_ofColumn .question))
    (fun _ counted => h.rowsOverflow node.family counted.2)
    fun _ counted row lt => h.cellNode node.family (h.rows counted.2 row lt) there

section Table

variable (isTable : a.role = .table)

include isTable

omit h node isTable in
theorem nodeIf {present : Option Bool} {make : Act μ Adapter}
    (makes : present = some true → make.Keeps C P fun b => S.Node a.tree b) :
    (Adapter.Table.nodeIf a present make).Keeps C P fun _ => True := by
  unfold Adapter.Table.nodeIf
  split
  · refine hasTree.bind fun held _ => ?_
    split
    · exact (makes ‹_›).bind fun _ _ => .pure trivial
    · exact .pure trivial
  · exact .pure trivial

theorem row {row : Nat} (may : S.Answers a.peer (.isRow row) true → S.Rows a.peer row) :
    (Adapter.Table.row a row).Keeps C P fun _ => True :=
  (h.read (h.peer node) _ Reading.reports_hasRow (Reading.steady_ofInquiry .question)).bind
    fun _ known => nodeIf fun there => h.rowNode (node.own isTable) (may (known _ there rfl))

theorem column {column : Nat}
    (may : S.Answers a.peer (.isColumn column) true → S.Columns a.peer column) :
    (Adapter.Table.column a column).Keeps C P fun _ => True :=
  (h.read (h.peer node) _ Reading.reports_hasColumn (Reading.steady_ofInquiry .question)).bind
    fun _ known => nodeIf fun there => h.columnNode (node.own isTable) (may (known _ there rfl))

theorem cell {row column : Nat} (may : S.Answers a.peer (.isRow row) true → S.Rows a.peer row)
    (may' : S.Answers a.peer (.isColumn column) true → S.Columns a.peer column) :
    (Adapter.Table.cell a row column).Keeps C P fun _ => True :=
  (h.read (h.peer node) _ Reading.reports_hasCell Reading.steady_hasCell).bind
    fun _ known => nodeIf fun there => h.cellNode (node.own isTable) (may (known _ there rfl).1) (may' (known _ there rfl).2)

theorem rowNodes {count : Nat} (counted : S.Answers a.peer .rowCount count) :
    (Adapter.Table.rowNodes a count : Act μ _).Keeps C P fun nodes => ∀ b ∈ nodes, S.Node a.tree b :=
  .each fun row mem =>
    h.rowNode (node.own isTable) (h.rows counted row (List.mem_range.1 mem))

theorem columnNodes {count : Nat} (counted : S.Answers a.peer .columnCount count) :
    (Adapter.Table.columnNodes a count : Act μ _).Keeps C P fun nodes => ∀ b ∈ nodes, S.Node a.tree b :=
  .each fun column mem =>
    h.columnNode (node.own isTable) (h.columns counted column (List.mem_range.1 mem))

theorem tableRows : (Adapter.Table.rows a).Keeps C P fun nodes => ∀ b ∈ nodes, S.Node a.tree b :=
  counted (h.read (h.peer node) _ Reading.reports_rowCount (Reading.steady_ofInquiry .question))
    (fun _ counted => h.rowsOverflow node.family counted)
    fun _ counted row lt => h.rowNode (node.own isTable) (h.rows counted row lt)

theorem tableColumns : (Adapter.Table.columns a).Keeps C P fun nodes => ∀ b ∈ nodes, S.Node a.tree b :=
  counted (h.read (h.peer node) _ Reading.reports_columnCount (Reading.steady_ofInquiry .question))
    (fun _ counted => h.columnsOverflow node.family counted)
    fun _ counted column lt =>
      h.columnNode (node.own isTable) (h.columns counted column lt)

theorem childrenFor {shape : Shape} (rows : S.Answers a.peer .rowCount shape.rows)
    (columns : S.Answers a.peer .columnCount shape.columns) :
    (Adapter.Table.childrenFor a shape : Act μ _).Keeps C P fun nodes => ∀ b ∈ nodes, S.Node a.tree b := by
  unfold Adapter.Table.childrenFor
  refine hasTree.bind fun held _ => ?_
  split
  · refine (Act.Keeps.makeRoom (h.childrenOverflow node.family rows columns)).bind fun _ _ => ?_
    refine (h.rowNodes node isTable rows).bind fun _ first => ?_
    refine (h.columnNodes node isTable columns).bind fun _ then_ => .pure fun b mem => ?_
    exact (List.mem_append.1 mem).elim (first b) (then_ b)
  · exact .pure fun b mem => by cases mem

theorem tableChildren : (Adapter.Table.children a).Keeps C P fun nodes => ∀ b ∈ nodes, S.Node a.tree b := by
  refine (h.shape node).bind fun shape known => ?_
  cases shape with
  | none => exact .pure fun b mem => by cases mem
  | some shape => exact h.childrenFor node isTable (known _ rfl).1 (known _ rfl).2

end Table

omit h node in
theorem role_of_identity {k : NodeKey} (e : a.identity = .table k) : a.role = .table := by
  rw [Adapter.role, e]
  rfl

theorem children :
    (a.children).Keeps C P fun nodes => ∀ b ∈ nodes, S.Node a.tree b := by
  unfold Adapter.children
  split
  · exact h.tableChildren node (role_of_identity ‹_›)
  · exact h.rowCells node (node.row ‹_›)
  · exact h.columnCells node (node.column ‹_›)
  · exact .pure fun b mem => by cases mem

theorem treeChildren :
    (a.treeChildren).Keeps C P fun nodes => ∀ b ∈ nodes, S.Node a.tree b := by
  unfold Adapter.treeChildren
  split
  · exact .pure fun b mem => by cases mem
  · exact h.children node

/-- A reading of which nothing is known but that it does not say that the table is gone. -/
theorem readAny (question : String) {reading : Inquiry (Except Unavailable α)}
    (honest : Reading.Honest reading) (steady : Reading.Steady (S.Answers a.peer) T reading) :
    (a.read question reading).Keeps C P fun _ => True :=
  (h.read (h.peer node) question (Reading.reports_of_honest honest) steady).forget

theorem rowIndex (row : Nat) : (Adapter.Row.index a row : Act μ _).Keeps C P fun _ => True :=
  h.readAny node _ (Reading.honest_ofRow row _) (Reading.steady_ofRow (.pure trivial))

theorem rowColumnCount (row : Nat) :
    (Adapter.Row.columnCount a row : Act μ _).Keeps C P fun _ => True :=
  h.readAny node _ (Reading.honest_ofRow row _) (Reading.steady_ofRow .question)

theorem columnNumber (column : Nat) :
    (Adapter.Column.number a column : Act μ _).Keeps C P fun _ => True :=
  h.readAny node _ (Reading.honest_ofColumn column _) (Reading.steady_ofColumn (.pure trivial))

theorem columnHeader (column : Nat) :
    (Adapter.Column.header a column : Act μ _).Keeps C P fun _ => True :=
  (h.query (h.peer node) (Reading.reports_of_honest (Reading.honest_ofColumn column _))
    Reading.steady_headerText).bind fun _ told => (h.degrade _ told).bind fun _ _ => .pure trivial

theorem columnRowCount (column : Nat) :
    (Adapter.Column.rowCount a column : Act μ _).Keeps C P fun _ => True :=
  h.readAny node _ (Reading.honest_ofColumn column _) (Reading.steady_ofColumn .question)

theorem snapshot (question : String) (row column : Nat) :
    (Adapter.Cell.snapshot a question row column : Act μ _).Keeps C P fun _ => True :=
  h.readAny node _ (Reading.honest_cell row column) Reading.steady_cell

theorem childCount : (a.childCount : Act μ _).Keeps C P fun _ => True := by
  unfold Adapter.childCount
  split
  · exact (h.shape node).bind fun _ _ => .pure trivial
  · exact h.rowColumnCount node _
  · exact h.columnRowCount node _
  · exact (h.snapshot node _ _ _).bind fun _ _ => .pure trivial

theorem label : (a.label : Act μ _).Keeps C P fun _ => True := by
  unfold Adapter.label
  split
  · exact (h.shape node).bind fun _ _ => .pure trivial
  · exact .pure trivial
  · exact h.columnHeader node _
  · exact (h.snapshot node _ _ _).bind fun _ _ => .pure trivial

theorem indexInParent : (a.indexInParent : Act μ _).Keeps C P fun _ => True := by
  unfold Adapter.indexInParent
  split
  · exact .pure trivial
  · exact h.rowIndex node _
  · exact h.columnNumber node _
  · exact (h.snapshot node _ _ _).bind fun _ _ => .pure trivial

theorem roleAnswer (attr : Attribute) : (a.roleAnswer attr : Act μ _).Keeps C P fun _ => True := by
  have value : ∀ {γ : Type} {act : Act μ γ} {f : γ → AttributeValue},
      (act.Keeps C P fun _ => True) → (do return f (← act)).Keeps C P fun _ => True :=
    fun keeps => keeps.bind fun _ _ => .pure trivial
  have cell : ∀ {γ : Type} {f : Option CellText → γ} question row column,
      (do return f (← Adapter.Cell.snapshot a question row column) : Act μ γ).Keeps C P fun _ => True :=
    fun question row column => (h.snapshot node question row column).bind fun _ _ => .pure trivial
  unfold Adapter.roleAnswer
  split
  · exact value (h.readAny node _ (Reading.honest_ofInquiry _) (Reading.steady_ofInquiry .question))
  · exact value (h.readAny node _ (Reading.honest_ofInquiry _) (Reading.steady_ofInquiry .question))
  · exact value (h.rowIndex node _)
  · exact value (h.rowColumnCount node _)
  · exact value (h.columnNumber node _)
  · exact value (h.columnHeader node _)
  · exact value ((h.columnNumber node _).bind fun _ _ => .pure trivial)
  · exact value (h.columnRowCount node _)
  · exact value (cell _ _ _)
  · exact value (cell _ _ _)
  · exact value (cell _ _ _)
  · exact value (cell _ _ _)
  · exact value (cell _ _ _)
  · exact .pure trivial

/-- Any attribute of a node. -/
theorem answer (attr : Attribute) : (a.answer attr).Keeps C P fun _ => True := by
  unfold Adapter.answer
  split
  · exact .pure trivial
  · exact (h.isValid (h.peer node)).bind fun _ _ => .pure trivial
  · exact (h.label node).bind fun _ _ => .pure trivial
  · refine Act.Keeps.bind (Q := fun _ => True) ?_ fun parent _ => ?_
    · unfold Adapter.parentOf
      split
      · exact .pure trivial
      · exact h.parentNode
    · split <;> exact .pure trivial
  · exact (h.children node).bind fun _ _ => .pure trivial
  · exact (h.childCount node).bind fun _ _ => .pure trivial
  · exact (h.indexInParent node).bind fun _ _ => .pure trivial
  · exact h.roleAnswer node _

end Node

/-! ### Updates -/

omit h in
/-- The ids of nodes that may be looked up where others may. -/
theorem reaches_ids {nodes : List Adapter} (known : ∀ b ∈ nodes, S.Node t b) {id : NodeId}
    (mem : id ∈ Adapter.ids nodes) (may : S.Reaches t k) : S.Reaches t (.ofRaw id) := by
  obtain ⟨b, there, rfl⟩ := List.mem_map.1 mem
  rw [NodeKey.ofRaw_toRaw]
  exact (known b there).reach may

/-- A node is written out. Its children may be looked up where others may. -/
theorem build (node : S.Node t a) : (a.build).Keeps C P fun written =>
    ∀ n, written = some n → ∀ id ∈ n.children, ∀ k, S.Reaches t k → S.Reaches t (.ofRaw id) := by
  have listed : ∀ {nodes : List Adapter}, (∀ b ∈ nodes, S.Node a.tree b) →
      ∀ id ∈ Adapter.ids nodes, ∀ k, S.Reaches t k → S.Reaches t (.ofRaw id) :=
    fun known id mem k may => node.shares.2 (reaches_ids known mem (node.shares.1 may))
  have nothing : ∀ id ∈ ([] : List NodeId), ∀ k, S.Reaches t k → S.Reaches t (.ofRaw id) :=
    fun id mem => by cases mem
  unfold Adapter.build
  split
  · refine (h.shape node).bind fun shape known => ?_
    cases shape with
    | none => exact .pure fun n e => by cases e
    | some shape =>
      refine (h.childrenFor node (role_of_identity ‹_›) (known _ rfl).1 (known _ rfl).2).bind
        fun _ known => .pure fun n e => ?_
      cases e
      exact listed known
  · refine (h.rowIndex node _).bind fun index _ => ?_
    split
    · exact .pure fun n e => by cases e
    · refine (h.rowCells node (node.row ‹_›)).bind fun _ known => .pure fun n e => ?_
      cases e
      exact listed known
  · refine (h.query (h.peer node) (Reading.reports_of_honest (Reading.honest_ofColumn _ _))
      Reading.steady_headerText).bind fun _ told => (h.degrade _ told).bind fun _ _ => ?_
    split
    · exact .pure fun n e => by cases e
    · refine .pure fun n e => ?_
      cases e
      exact nothing
  · refine (h.snapshot node _ _ _).bind fun _ _ => ?_
    split
    · exact .pure fun n e => by cases e
    · refine .pure fun n e => ?_
      cases e
      exact nothing

theorem visit (depth : Nat) (may : S.Reaches t k) :
    (TableAccess.visit t depth k : Act μ _).Keeps C P fun _ => True := by
  induction depth generalizing k with
  | zero => exact .pure trivial
  | succ depth ih =>
    unfold TableAccess.visit
    refine h.getTree (h.grown may) fun {w₀ w tree} along ht => ?_
    split
    · exact .pure along trivial
    · rename_i a ha
      refine ((h.build (h.stored along may ht ha)).bind fun node reached => ?_).keeps along
      split
      · exact .pure trivial
      · refine (Act.Keeps.each (R := fun _ => True) fun id mem => ?_).bind fun _ _ => .pure trivial
        exact ih (reached _ rfl id mem k may)

theorem dropDangling (nodes : List (NodeId × TreeNode)) :
    (TableAccess.dropDangling nodes : Act μ _).Keeps C P fun _ => True := by
  refine (Act.Keeps.each (R := fun _ => True) fun n _ => ?_).forget
  unfold keepWritten
  dsimp only
  split
  · exact .pure trivial
  · exact (h.tell _).bind fun _ _ => .pure trivial

theorem treeUpdate (may : S.Reaches t k) :
    (buildTreeUpdate t k : Act μ _).Keeps C P fun _ => True := by
  unfold buildTreeUpdate
  refine (h.tell _).bind fun _ _ => (h.visit _ may).bind fun nodes _ => ?_
  split
  · exact (h.tell _).bind fun _ _ => .pure trivial
  · exact (h.dropDangling nodes).bind fun _ _ => (h.tell _).bind fun _ _ => .pure trivial

theorem nodeUpdate (focus : Option NodeKey) (may : S.Reaches t k) :
    (buildNodeUpdate t focus k : Act μ _).Keeps C P fun _ => True := by
  unfold buildNodeUpdate
  refine h.getTree (h.grown may) fun {w₀ w tree} along ht => ?_
  split
  · exact .pure along trivial
  · rename_i a ha
    refine ((h.build (h.stored along may ht ha)).bind fun node _ => ?_).keeps along
    split <;> exact .pure trivial

/-! ### Outlines -/

theorem line (o : Outline.Options) (path : List Bool) (node : S.Node t a) :
    (Outline.line o path a : Act μ _).Keeps C P fun _ => True := by
  rw [Outline.line_eq]
  refine (h.label node).bind fun _ _ => .bind (Q := fun _ => True) ?_ fun _ _ =>
    .bind (Q := fun _ => True) ?_ fun _ _ => .pure trivial
  · split
    · exact h.indexInParent node
    · exact .pure trivial
  · split
    · exact (h.isValid (h.peer node)).map fun _ _ => trivial
    · exact .pure trivial

theorem linesUnder (o : Outline.Options) (depth : Nat) (path : List Bool) (node : S.Node t a) :
    (Outline.linesUnder o depth path a : Act μ _).Keeps C P fun _ => True := by
  induction depth generalizing path t a with
  | zero => exact .pure trivial
  | succ depth ih =>
    unfold Outline.linesUnder
    split
    · exact .pure trivial
    · refine (h.line o path node).bind fun _ _ => (h.treeChildren node).bind fun children nodes => ?_
      refine (Act.Keeps.each (R := fun _ => True) fun child mem => ?_).bind fun _ _ => .pure trivial
      exact ih _ (nodes child.2 (Outline.mem_of_withMore mem))

theorem outlineUnder (o : Outline.Options) (node : S.Node t a) :
    (TableAccess.outlineUnder o a : Act μ _).Keeps C P fun _ => True :=
  (h.linesUnder o _ _ node).bind fun _ _ => .pure trivial

theorem outlineAll (planted : S.Planted t) (all : ∀ k, S.Reaches t k) (o : Outline.Options) :
    (TableAccess.outlineAll o t : Act μ _).Keeps C P fun _ => True := by
  unfold TableAccess.outlineAll
  refine h.getTree planted fun {w₀ w tree} along ht => ?_
  refine ((Act.Keeps.each (R := fun _ => True) fun a mem => ?_).bind fun _ _ =>
    .pure trivial).keeps along
  exact h.outlineUnder o (h.listed along all ht mem)

/-! ### Bridges -/

variable {b : BridgeId}

/-- Looking for a bridge. -/
theorem getBridge (spans : S.Spans b) {f : Bridge → Act μ α}
    (rest : ∀ bridge : Bridge, S.Over b bridge.tree → (∀ k, bridge.root = some k → S.Roots b k) →
      (f bridge).Keeps C P V) : (Bridge.getBridge b >>= f).Keeps C P V := by
  refine ⟨fun {w₀ w} along => ?_⟩
  have there := h.spans along spans
  unfold Bridge.getBridge
  rw [bind_assoc]
  refine .get ?_
  cases hb : w.bridges[b]? with
  | none =>
    rw [hb] at there
    exact .throw along there
  | some bridge =>
    rw [hb] at there
    exact (rest bridge there.1 there.2).keeps along

theorem node? (spans : S.Spans b) {id : NodeId} (may : ∀ t, S.Over b t → S.Reaches t (.ofRaw id)) :
    (Bridge.node? b id : Act μ _).Keeps C P fun node => ∀ a, node = some a → ∃ t, S.Node t a := by
  unfold Bridge.node?
  refine h.getBridge spans fun bridge isOver _ => ?_
  refine h.getTree (h.spanned isOver) fun along ht => .pure along ?_
  exact fun a ha => ⟨_, h.stored along (may _ isOver) ht ha⟩

theorem root? (spans : S.Spans b) :
    (Bridge.root? b : Act μ _).Keeps C P fun root => ∀ k, root = some k → S.Roots b k := by
  unfold Bridge.root?
  refine h.getBridge spans fun bridge isOver roots => h.getTree (h.spanned isOver) fun along _ => ?_
  exact .pure along fun k e => roots k (Option.filter_eq_some_iff.1 e).1

theorem bridgeQuery (spans : S.Spans b) {id : NodeId}
    (may : ∀ t, S.Over b t → S.Reaches t (.ofRaw id)) (attr : Attribute) :
    (Bridge.query b id attr : Act μ _).Keeps C P fun _ => True := by
  unfold Bridge.query
  refine (h.tell _).bind fun _ _ => (h.node? spans may).bind fun node known => ?_
  cases node with
  | none => exact (h.tell _).bind fun _ _ => .pure trivial
  | some a =>
    obtain ⟨t, node⟩ := known a rfl
    exact (h.answer node attr).bind fun _ _ => (h.tell _).bind fun _ _ => .pure trivial

theorem bridgeTreeUpdate (spans : S.Spans b) (may : ∀ t, S.Over b t → S.Reaches t k) :
    (Bridge.treeUpdate b k : Act μ _).Keeps C P fun _ => True :=
  h.getBridge spans fun _ isOver _ => h.treeUpdate (may _ isOver)

theorem bridgeNodeUpdate (spans : S.Spans b) (may : ∀ t, S.Over b t → S.Reaches t k) :
    (Bridge.nodeUpdate b k : Act μ _).Keeps C P fun _ => True := by
  unfold Bridge.nodeUpdate
  refine h.getBridge spans fun bridge isOver _ =>
    (h.nodeUpdate none (may _ isOver)).bind fun update _ => ?_
  split
  · exact .pure trivial
  · exact (h.root? spans).bind fun _ _ => .pure trivial

theorem initialTree (spans : S.Spans b)
    (may : ∀ k, S.Roots b k → ∀ t, S.Over b t → S.Reaches t k) :
    (Bridge.initialTree b : Act μ _).Keeps C P fun _ => True := by
  unfold Bridge.initialTree
  refine (h.root? spans).bind fun root roots => ?_
  split
  · exact .pure trivial
  · exact h.bridgeTreeUpdate spans (may _ (roots _ rfl))

theorem ignoreAction (spans : S.Spans b) {id : NodeId}
    (may : ∀ t, S.Over b t → S.Reaches t (.ofRaw id)) (action : Action) :
    (Bridge.ignoreAction b id action : Act μ _).Keeps C P fun _ => True := by
  unfold Bridge.ignoreAction
  exact (h.node? spans may).bind fun _ _ => h.tell _

end Visits

/-! ### Tables that come and go -/

namespace Deeds

variable {S : Scope} {C : Conduct μ} {P T : Panic → Prop} {t : TreeId} {k : NodeKey} {a : Adapter}
  {b : BridgeId} (h : S.Deeds C P T)

include h

theorem detachTable (planted : S.Planted t) (detachable : S.Detachable t k) :
    (TableAccess.detachTable t k : Act μ _).Keeps C P fun _ => True := by
  unfold TableAccess.detachTable
  refine h.getTree planted fun {w₀ w tree} along ht => .modify ?_
  have along := h.detaches along detachable
  split
  · exact ((h.tell _).bind fun _ _ => .pure trivial).keeps along
  · exact .pure along trivial

/-- One table is taken out if it is not valid any more. -/
theorem pruneTable (planted : S.Planted t) (node : S.Node t a)
    (detachable : S.Invalid a.peer → S.Detachable t a.key) :
    (TableAccess.pruneTable t a : Act μ _).Keeps C P fun _ => True := by
  unfold TableAccess.pruneTable
  refine (h.isValid (h.peer node)).bind fun valid invalid => ?_
  cases valid with
  | true => exact .pure trivial
  | false => exact h.detachTable planted (detachable (invalid rfl))

theorem prune (planted : S.Planted t) (all : ∀ k, S.Reaches t k) :
    (TableAccess.prune t : Act μ _).Keeps C P fun _ => True := by
  unfold TableAccess.prune
  refine h.getTree planted fun {w₀ w tree} along ht => ?_
  refine ((Act.Keeps.each (R := fun _ => True) fun a mem => ?_).bind fun _ _ => .pure trivial).keeps along
  exact h.pruneTable planted (h.listed along all ht mem) (h.invalid along all ht mem)

theorem attachTable {table : TableId} (planted : S.Planted t) (attachable : S.Attachable t table) :
    (TableAccess.attachTable t table : Act μ _).Keeps C P fun _ => True := by
  unfold TableAccess.attachTable
  refine h.getTree planted fun {w₀ w tree} along ht => .get ?_
  cases found : tree.tables.find? (standsFor w table) with
  | some a => exact .pure along trivial
  | none =>
    dsimp only
    cases next : tree.nodes.nextKey? with
    | none => exact .throw along (h.attachesFull along attachable ht found next)
    | some k =>
      exact .modify (.modify (.tell (.pure
        (h.plain.told (h.attaches along attachable ht found next) _) trivial)))

theorem attach {table : TableId} (spans : S.Spans b)
    (attachable : ∀ t, S.Over b t → S.Attachable t table) :
    (Bridge.attach b table : Act μ _).Keeps C P fun _ => True := by
  unfold Bridge.attach
  refine h.getBridge spans fun bridge isOver _ => ?_
  have may := attachable _ isOver
  refine (h.attachTable (h.spanned isOver) may).bind fun a _ => (h.root? spans).bind fun root _ => ?_
  split
  · refine (h.tell _).bind fun _ _ => ⟨fun along => .modify (.pure ?_ trivial)⟩
    exact h.roots along spans (h.becomes may _)
  · exact .pure trivial

end Deeds

/-! ### Requests -/

/-- A request stays in a scope. -/
def Admits (S : Scope) : Request → Prop
  | .attachTo t table => S.Planted t ∧ S.Attachable t table
  | .attach b table => S.Spans b ∧ ∀ t, S.Over b t → S.Attachable t table
  | .row a row => S.Node a.tree a ∧ a.role = .table ∧
    (S.Answers a.peer (.isRow row) true → S.Rows a.peer row)
  | .column a column => S.Node a.tree a ∧ a.role = .table ∧
    (S.Answers a.peer (.isColumn column) true → S.Columns a.peer column)
  | .cell a row column => S.Node a.tree a ∧ a.role = .table ∧
    (S.Answers a.peer (.isRow row) true → S.Rows a.peer row) ∧
    (S.Answers a.peer (.isColumn column) true → S.Columns a.peer column)
  | .rows a | .columns a => S.Node a.tree a ∧ a.role = .table
  | .children a | .treeChildren a | .answer a _ | .build a | .outlineUnder a _ => S.Node a.tree a
  | .query b id _ | .ignoreAction b id _ =>
    S.Spans b ∧ ∀ t, S.Over b t → S.Reaches t (.ofRaw id)
  | .nodeUpdate b k => S.Spans b ∧ ∀ t, S.Over b t → S.Reaches t k
  | .initialTree b => S.Spans b ∧ ∀ k, S.Roots b k → ∀ t, S.Over b t → S.Reaches t k
  | .treeUpdate t k => S.Reaches t k
  | .outline t _ | .prune t => S.Planted t ∧ ∀ k, S.Reaches t k
  | .detach t k => S.Planted t ∧ S.Detachable t k

/-- A request that stays in a scope keeps to the conduct, if it only looks at tables, -/
theorem Visits.request {S : Scope} {C : Conduct μ} {P T : Panic → Prop} (h : S.Visits C P T)
    {request : Request} (looks : request.Looks) (admitted : S.Admits request) :
    request.act.Keeps C P fun _ => True := by
  have forget : ∀ {γ : Type} {act : Act μ γ} {Q : γ → Prop}, act.Keeps C P Q →
      act.forget.Keeps C P fun _ => True := fun keeps => keeps.bind fun _ _ => .pure trivial
  cases request with
  | row a r => exact forget (h.row admitted.1 admitted.2.1 admitted.2.2)
  | column a c => exact forget (h.column admitted.1 admitted.2.1 admitted.2.2)
  | cell a r c =>
    exact forget (h.cell admitted.1 admitted.2.1 admitted.2.2.1 admitted.2.2.2)
  | rows a => exact forget (h.tableRows admitted.1 admitted.2)
  | columns a => exact forget (h.tableColumns admitted.1 admitted.2)
  | children a => exact forget (h.children admitted)
  | treeChildren a => exact forget (h.treeChildren admitted)
  | answer a attr => exact forget (h.answer admitted attr)
  | build a => exact forget (h.build admitted)
  | query b id attr => exact forget (h.bridgeQuery admitted.1 admitted.2 attr)
  | treeUpdate t k => exact forget (h.treeUpdate admitted)
  | nodeUpdate b k => exact forget (h.bridgeNodeUpdate admitted.1 admitted.2)
  | initialTree b => exact forget (h.initialTree admitted.1 admitted.2)
  | ignoreAction b id action => exact h.ignoreAction admitted.1 admitted.2 action
  | outline t o => exact forget (h.outlineAll admitted.1 admitted.2 o)
  | outlineUnder a o => exact forget (h.outlineUnder o admitted)
  | attachTo | attach | detach | prune => exact looks.elim

/-- and so does one with which tables come and go. -/
theorem Deeds.request {S : Scope} {C : Conduct μ} {P T : Panic → Prop} (h : S.Deeds C P T)
    {request : Request} (admitted : S.Admits request) : request.act.Keeps C P fun _ => True := by
  have forget : ∀ {γ : Type} {act : Act μ γ} {Q : γ → Prop}, act.Keeps C P Q →
      act.forget.Keeps C P fun _ => True := fun keeps => keeps.bind fun _ _ => .pure trivial
  cases request with
  | attachTo t table => exact forget (h.attachTable admitted.1 admitted.2)
  | attach b table => exact forget (h.attach admitted.1 admitted.2)
  | detach t k => exact forget (h.detachTable admitted.1 admitted.2)
  | prune t => exact forget (h.prune admitted.1 admitted.2)
  | _ => exact h.toVisits.request trivial admitted

/-! ### Open scopes -/

/-- All nodes, trees and bridges may come up, and any panic. -/
structure Open (S : Scope) : Prop where
  peers : ∀ {p}, S.Peers p
  family : ∀ {t k p}, S.Family t k p
  rows : ∀ {p row}, S.Rows p row
  columns : ∀ {p column}, S.Columns p column
  planted : ∀ {t}, S.Planted t
  reaches : ∀ {t k}, S.Reaches t k
  attachable : ∀ {t table}, S.Attachable t table
  spans : ∀ {b}, S.Spans b
  isOver : ∀ {b t}, S.Over b t
  roots : ∀ {b k}, S.Roots b k

/-- What is done to tables, peers, trees and bridges keeps to a conduct. -/
structure Steps (S : Scope) (C : Conduct μ) : Prop extends S.Reads C fun _ => True where
  judges : ∀ {w₀ w : World μ} {p t c}, C.Along w₀ w → w.thread = .toolkit c → S.Refers p t c →
    S.Judges p t w
  absent : ∀ {w₀ w : World μ} {p peer}, C.Along w₀ w → w.peers[p]? = some peer →
    w.table? peer.table = none → S.Gone p
  /-- A table that may be taken for invalid may be taken out. -/
  invalid : ∀ {w₀ w : World μ} {t : TreeId} {tree : Tree} {a}, C.Along w₀ w →
    w.trees[t]? = some tree → a ∈ tree.tables → S.Invalid a.peer → S.Detachable t a.key
  /-- A node is added that stands for something new. -/
  adds : ∀ {w₀ w : World μ} {t : TreeId} {tree : Tree} {a : Adapter}, C.Along w₀ w →
    w.trees[t]? = some tree → tree.nodes.nextKey? = some a.key →
    a.role ≠ .table ∧ tree.find? a.identity = none ∨ a.identity = .table a.key →
      C.Along w₀ (w.modifyTree t (·.add a))
  detaches : ∀ {w₀ w : World μ} {t k}, C.Along w₀ w → S.Detachable t k →
    C.Along w₀ (w.modifyTree t (·.removeTable k))
  /-- There is a new peer, and it has not been latched. -/
  peers : ∀ {w₀ w : World μ}, C.Along w₀ w → ∀ new : Peer, new.invalidated = false →
    C.Along w₀ { w with peers := w.peers ++ [new] }
  /-- Something happens to bridges. -/
  bridges : ∀ {w₀ w : World μ}, C.Along w₀ w → ∀ bridges : List Bridge,
    C.Along w₀ { w with bridges }

theorem open_any : any.Open :=
  ⟨trivial, trivial, trivial, trivial, trivial, trivial, trivial, trivial, trivial, trivial⟩

namespace Open

variable {S : Scope} {C : Conduct μ}

/-- Any node may come up in an open scope, -/
theorem node (h : S.Open) (t : TreeId) (a : Adapter) : S.Node t a := by
  refine ⟨h.family, fun _ => h.family, ?_, fun _ => h.reaches, fun {_} =>
    ⟨fun _ => h.reaches, fun _ => h.reaches⟩⟩
  unfold Adapter.role
  cases a.identity with
  | table => exact .inl rfl
  | row => exact .inr h.rows
  | column => exact .inr h.columns
  | cell => exact .inr ⟨h.rows, h.columns⟩

/-- and any request stays in it, unless it takes out a table that is to stay. -/
theorem admits (h : S.Open) {request : Request} (kind : request.OfTable)
    (detachable : ∀ t k, request = .detach t k → S.Detachable t k) : S.Admits request := by
  cases request with
  | attachTo => exact ⟨h.planted, h.attachable⟩
  | attach => exact ⟨h.spans, fun _ _ => h.attachable⟩
  | row a => exact ⟨h.node _ a, kind, fun _ => h.rows⟩
  | column a => exact ⟨h.node _ a, kind, fun _ => h.columns⟩
  | cell a => exact ⟨h.node _ a, kind, fun _ => h.rows, fun _ => h.columns⟩
  | rows a | columns a => exact ⟨h.node _ a, kind⟩
  | children a | treeChildren a | answer a | build a | outlineUnder a => exact h.node _ a
  | query | nodeUpdate | ignoreAction => exact ⟨h.spans, fun _ _ => h.reaches⟩
  | initialTree => exact ⟨h.spans, fun _ _ _ _ => h.reaches⟩
  | treeUpdate => exact h.reaches
  | outline | prune => exact ⟨h.planted, fun _ => h.reaches⟩
  | detach t k => exact ⟨h.planted, detachable t k rfl⟩

theorem deeds (h : S.Open) (steps : S.Steps C) : S.Deeds C fun _ => True where
  toReads := steps.toReads
  judges := steps.judges
  absent along _ hp gone := steps.absent along hp gone
  planted _ _ _ := trivial
  home _ := h.planted
  reader _ := h.peers
  grown _ := h.planted
  stored _ _ _ _ := h.node _ _
  found _ _ _ _ := h.node _ _
  listed _ _ _ _ := h.node _ _
  invalid along _ ht mem := steps.invalid along ht mem
  adds {_ _ _ _ _ i _} along _ within ht new next := by
    exact ⟨fun _ _ => steps.adds along ht next (.inl ⟨within.ne_table, new⟩), fun _ _ => h.reaches⟩
  full _ _ _ _ _ _ := trivial
  rows _ _ _ := h.rows
  columns _ _ _ := h.columns
  rowsOverflow _ _ _ := trivial
  columnsOverflow _ _ _ := trivial
  childrenOverflow _ _ _ _ := trivial
  detaches := steps.detaches
  attaches along _ ht _ next := steps.adds (steps.peers along _ rfl) ht next (.inr rfl)
  becomes _ _ := h.roots
  attachesFull _ _ _ _ _ := trivial
  spans _ _ := by
    split
    · trivial
    · exact ⟨h.isOver, fun _ _ => h.roots⟩
  spanned _ := h.planted
  roots along _ _ := steps.bridges along _

end Open

/-- Whatever comes up while tables are looked at keeps to a conduct, if tables are asked, peers latched
and nodes added as it says. -/
theorem any_visits {C : Conduct μ} (plain : C.Plain)
    (asks : ∀ {w₀ w : World μ} {t : TableId} {table : Table}, C.Along w₀ w →
      w.table? t = some table → ∀ q : Question,
        C.Leaves w₀ (w.setTable t (some (table.ask w.checksOn w.thread q).2)))
    (latches : ∀ {w₀ w : World μ}, C.Along w₀ w → ∀ p : PeerId, C.Leaves w₀
      (World.tell { w with peers := w.peers.modify p ({ · with invalidated := true }) }
        .peerInvalidated))
    (adds : ∀ {w₀ w : World μ} {t : TreeId} {tree : Tree} {p : PeerId} {i : Identity} {k parent : NodeKey},
      C.Along w₀ w → i.role ≠ .table → w.trees[t]? = some tree → tree.find? i = none →
      tree.nodes.nextKey? = some k → (tree.Indexed → tree.IsParent i parent) →
        C.Leaves w₀ (w.modifyTree t (·.add ⟨k, i, some parent, p, t⟩))) :
    any.Visits C fun _ => True where
  plain := plain
  refers _ _ _ := trivial
  latched _ _ _ := trivial
  nobody _ _ := trivial
  gone _ := trivial
  asks along _ _ ht q := ⟨⟨along.thread, asks along ht q⟩, fun _ _ => trivial⟩
  invalidates along _ _ _ := ⟨along.thread, latches along _⟩
  overruns _ _ _ _ _ := trivial
  judges _ _ _ := ⟨fun _ => trivial, fun _ _ => trivial⟩
  absent _ _ _ _ := trivial
  planted _ _ _ := trivial
  home _ := trivial
  reader _ := trivial
  grown _ := trivial
  stored _ _ _ _ := open_any.node _ _
  found _ _ _ _ := open_any.node _ _
  listed _ _ _ _ := open_any.node _ _
  adds along _ within ht new next :=
    ⟨fun _ isParent => ⟨along.thread, adds along within.ne_table ht new next isParent⟩, fun _ => id⟩
  full _ _ _ _ _ _ := trivial
  rows _ _ _ := trivial
  columns _ _ _ := trivial
  rowsOverflow _ _ _ := trivial
  columnsOverflow _ _ _ := trivial
  childrenOverflow _ _ _ _ := trivial
  spans _ _ := by
    split
    · trivial
    · exact ⟨trivial, fun _ _ => trivial⟩
  spanned _ := trivial

/-- Whatever comes up in requests keeps to a conduct, if tables are asked, peers latched and added, and
trees and bridges changed as it says. -/
theorem any_steps {C : Conduct μ} (plain : C.Plain)
    (asks : ∀ {w₀ w : World μ} {t : TableId} {table : Table}, C.Along w₀ w →
      w.table? t = some table → ∀ q : Question,
        C.Leaves w₀ (w.setTable t (some (table.ask w.checksOn w.thread q).2)))
    (latches : ∀ {w₀ w : World μ} {p : PeerId} {peer : Peer}, C.Along w₀ w →
      w.peers[p]? = some peer → peer.invalidated = false → C.Leaves w₀
        (World.tell { w with peers := w.peers.modify p ({ · with invalidated := true }) }
          .peerInvalidated))
    (peers : ∀ {w₀ w : World μ}, C.Along w₀ w → ∀ new : Peer, new.invalidated = false →
      C.Leaves w₀ { w with peers := w.peers ++ [new] })
    (others : ∀ {w₀ w : World μ}, C.Along w₀ w → ∀ (trees : List Tree) (bridges : List Bridge),
      C.Leaves w₀ { w with trees, bridges }) :
    any.Steps C where
  plain := plain
  refers _ _ _ := trivial
  latched _ _ _ := trivial
  nobody _ _ := trivial
  gone _ := trivial
  asks along _ _ ht q := ⟨⟨along.thread, asks along ht q⟩, fun _ _ => trivial⟩
  invalidates along _ hp unlatched := ⟨along.thread, latches along hp unlatched⟩
  overruns _ _ _ _ _ := trivial
  judges _ _ _ := ⟨fun _ => trivial, fun _ _ => trivial⟩
  absent _ _ _ := trivial
  invalid _ _ _ _ := trivial
  adds {_ w _ _ _} along _ _ _ := ⟨along.thread, others along _ w.bridges⟩
  detaches {_ w _ _} along _ := ⟨along.thread, others along _ w.bridges⟩
  peers along new unlatched := ⟨along.thread, peers along new unlatched⟩
  bridges {_ w} along bridges := ⟨along.thread, others along w.trees bridges⟩

end Scope

end TableAccess
