import TableAccess.Proofs.Answering

/-!
# What nodes gather from a table

Every reading of a table that stays as it is comes to what the contents say, on whatever thread it is
asked for. So do the label and the position of a node; its children in the serialized tree are the nodes
of its branches; and written out it says what the contents say.

## The model

* `World.Responds.handOff` — work that is handed over to a context that responds.
* `Brings.query`, `Brings.read` — a reading, made at once or handed over.
* `Brings.rowNode`, `Brings.columnNode`, `Brings.cellNode` — the node of a part, found or made.
* `Stage.Names`, `Stage.Tallies` — nodes of some parts, and how many of them there are.
* `Brings.children`, `Brings.treeChildren`, `Brings.label`, `Brings.indexInParent`, `Brings.build` — the
  answers of a node.
-/

namespace TableAccess

variable {μ α β : Type} {R : World μ → World μ → Prop} {w w' : World μ} {s : Stage}
  {E : Tree → Tree → Prop} {i : Identity} {a b : Adapter}

/-! ### Readings -/

/-- Work that is over at once is over at once on the thread of its context. -/
theorem runInline_run {name : String} {work : Act μ α} {v : α} (run : work w = .done (.ok v) w') :
    runInline name work w = .done (.ok (.ok v)) w' := by
  unfold runInline
  rw [Act.bind_apply]
  show ((work w).attempt).bind _ = _
  rw [run]
  rfl

/-- If it panics that is told. -/
theorem runInline_panics {name : String} {work : Act μ α} {p : Panic}
    (run : work w = .done (.error p) w') : runInline name work w =
      .done (.ok (.error .handOffPanicked)) (w'.tell (.inlineTaskPanicked name)) := by
  unfold runInline
  rw [Act.bind_apply]
  show ((work w).attempt).bind _ = _
  rw [run]
  rfl

/-- Work that is over at once comes to its result if its context responds: on the thread of the context it is
done there and then, elsewhere the others go on until it is done, and until its caller goes on. -/
theorem World.Responds.handOff {c : ContextId} {work : Act μ α}
    {post : Except Panic (Except Unavailable α) → World μ → Prop} (responds : w.Responds c)
    (inline : w.thread = .toolkit c → ∃ result w', work (w.tell (.span .handOff)) = .done result w' ∧
      post (.ok (ofWork result)) w' ∧ ∀ e, post (.ok (ofWork result)) (w'.tell e))
    (queued : ∀ {accepted w₁}, R (w.handed c accepted) w₁ → w₁.thread = .toolkit c →
      ∃ result w', work w₁ = .done result w' ∧ ∀ {w₂}, R w' w₂ → post (.ok (ofWork result)) w₂) :
    (TableAccess.handOff c none work w).ComesTo R post := by
  obtain ⟨context, hc, responds⟩ := responds
  by_cases here : w.thread = .toolkit c
  · obtain ⟨result, w', run, quiet, told⟩ := inline here
    rw [handOff_of_here none work here hc]
    cases result with
    | ok v =>
      rw [runInline_run run]
      exact quiet
    | error panic =>
      rw [runInline_panics run]
      exact told _
  · obtain ⟨⟨accepted, accepts⟩, fits⟩ := responds here
    have still : (w.handed c accepted).clock = w.clock := rfl
    rw [handOff_of_accepted none here _ hc accepts, Option.getD_none, runQueued_of_fits (still ▸ fits)]
    intro w₁ between onThread
    obtain ⟨result, w', run, answered⟩ := queued between onThread
    rw [run]
    exact fun w₂ between' _ => answered between'

/-- What is read of a cell. -/
theorem Stage.cell_reads (rectangular : s.grid.Rectangular) (row column : Nat) (t : GridTable)
    (same : t.grid = s.grid) : ∃ result, (Reading.cell row column).Reads t result ∧
      result.toOption = (s.grid.cell? row column).map fun text =>
        ⟨some text, s.grid.header? column⟩ := by
  rw [← same] at rectangular ⊢
  exact Reading.cell_reads rectangular row column

/-- The thread of the context may touch the table. -/
theorem Stage.Stands.opens (h : s.Stands w) (here : w.thread = .toolkit s.context) :
    ∃ table : GridTable, w.table? s.table = some (.grid table) ∧ table.grid = s.grid ∧
      table.disposed = false ∧ table.checkThread w.checksOn w.thread = .ok () := by
  obtain ⟨owner, table, bound⟩ := h.presents
  refine ⟨_, table, rfl, rfl, ?_⟩
  cases owner with
  | none => rfl
  | some c =>
    rw [bound c rfl, here]
    exact Affinity.check_eq_ok_iff.2 fun _ => rfl

namespace Act.Brings

open Stage

/-- The tree is found. -/
theorem getTree {tree : Tree} {f : Tree → Act μ α} {parts : List Identity} {Q : α → World μ → Prop}
    (ht : w.trees[s.tree]? = some tree) (h : (f tree).Brings s E R parts Q w) :
    (TableAccess.getTree s.tree >>= f).Brings s E R parts Q w := by
  unfold TableAccess.getTree
  rw [bind_assoc]
  refine get ?_
  simpa only [ht, pure_bind] using h

variable (bears : s.Bears E R)

include bears

/-- Work that is handed over is done at once, or its context answers. -/
theorem handOff {work : Act μ α} {P : Except Panic α → Prop} (ready : s.Ready w)
    (runs : ∀ {w'}, s.Stands w' → w'.thread = .toolkit s.context →
      ∃ result, work w' = .done result w' ∧ P result) :
    (TableAccess.handOff s.context none work).Brings s E R []
      (fun outcome _ => ∃ result, outcome = ofWork result ∧ P result) w := by
  refine ⟨ready.responds.handOff (fun here => ?_) fun {accepted w₁} between onThread => ?_⟩
  · have told := ready.tell (.span .handOff)
    obtain ⟨result, run, holds⟩ := runs told.toStands here
    exact ⟨result, _, run, .value told (.of_trees bears ready.toStands rfl) ⟨_, rfl, holds⟩,
      fun e => .value (told.tell e) (.of_trees bears ready.toStands rfl) ⟨_, rfl, holds⟩⟩
  · have handed : s.Stands (w.handed s.context accepted) := ready.toStands.congr rfl rfl rfl
    have before : s.Since E [] w (w.handed s.context accepted) := .of_trees bears ready.toStands rfl
    obtain ⟨ready₁, since₁⟩ := bears.since handed between
    obtain ⟨result, run, holds⟩ := runs ready₁.toStands onThread
    refine ⟨result, w₁, run, fun between' => ?_⟩
    obtain ⟨ready₂, since₂⟩ := bears.since ready₁.toStands between'
    exact .value ready₂ (before.trans bears (since₁.trans bears since₂)) ⟨result, rfl, holds⟩

/-- A reading that is handed over and does not find the table gone comes to its outcome. -/
theorem settled {read : Inquiry (Except Unavailable α)} {P : Except Unavailable α → Prop}
    (ready : s.Ready w) (reads : ∀ t : GridTable, t.grid = s.grid →
      Peer.flatten (ofWork ((read.eval t.answer).map some)) ≠ .error .stalePeer ∧
        P (Peer.flatten (ofWork ((read.eval t.answer).map some)))) :
    (Peer.query s.peer read).Brings s E R [] (fun result _ => P result) w := by
  refine of_eq bears ?_ ready.toStands (Peer.query_of_unlatched ready.peer read) rfl
  refine (handOff bears (P := fun found => Peer.flatten (ofWork found) ≠ .error .stalePeer ∧
    P (Peer.flatten (ofWork found))) ready fun stands here => ?_).nil_bind bears ?_
  · obtain ⟨table, ht, same, live, opens⟩ := stands.opens here
    exact ⟨_, consult_live ht opens live read, reads table same⟩
  rintro _ w' ready' - ⟨found, rfl, there, holds⟩
  rw [Peer.settle_of_ne there]
  exact pure bears ready' holds

/-- The peer reads what the contents say. -/
theorem query {read : Inquiry (Except Unavailable α)} {P : Except Unavailable α → Prop}
    (ready : s.Ready w)
    (reads : ∀ t : GridTable, t.grid = s.grid → ∃ result, read.Reads t result ∧ P result) :
    (Peer.query s.peer read).Brings s E R [] (fun result _ => P result) w := by
  refine settled bears ready fun t same => ?_
  obtain ⟨result, reads, holds⟩ := reads t same
  rw [reads.value]
  exact ⟨reads.there, holds⟩

/-- A reading may also panic. Then it comes to the answer that it did. -/
theorem ask {read : Inquiry (Except Unavailable α)} (ready : s.Ready w)
    (honest : read.All (· ≠ .error .stalePeer)) :
    (Peer.query s.peer read).Brings s E R [] (fun _ _ => True) w := by
  refine settled bears ready fun t _ => ⟨?_, trivial⟩
  cases e : read.eval t.answer with
  | ok value => exact honest.eval e
  | error p => simp [Except.map, ofWork, Peer.flatten]

theorem degrade {question : String} {result : Except Unavailable α} (ready : s.Ready w) :
    (a.degrade question result).Brings s E R [] (fun value _ => value = result.toOption) w := by
  cases result with
  | ok value => exact pure bears ready rfl
  | error u => exact tell bears ready (pure bears (ready.tell _) rfl)

/-- A node of the table reads what the contents say. -/
theorem read {question : String} {read : Inquiry (Except Unavailable α)} {value : Option α}
    (ready : s.Ready w) (peer : a.peer = s.peer)
    (reads : ∀ t : GridTable, t.grid = s.grid →
      ∃ result, read.Reads t result ∧ result.toOption = value) :
    (a.read question read).Brings s E R [] (fun result _ => result = value) w := by
  unfold Adapter.read Adapter.tryRead
  rw [peer]
  refine (query bears ready reads).nil_bind bears ?_
  rintro result w' ready' - rfl
  exact degrade bears ready'

/-- A bridge is found to hold the tree. -/
theorem hasTree {f : Bool → Act μ α} {parts : List Identity} {Q : α → World μ → Prop}
    (stands : s.Stands w) (found : s.Finds w i a) (h : (f true).Brings s E R parts Q w) :
    (a.hasTree >>= f).Brings s E R parts Q w :=
  h.of_eq bears stands (Adapter.hasTree_bind (found.held stands)) rfl

end Act.Brings

/-- Each item has its counterpart. -/
theorem forall₂_mem_left {P : α → β → Prop} {items : List α} {results : List β}
    (h : List.Forall₂ P items results) {x : α} (hx : x ∈ items) : ∃ y ∈ results, P x y := by
  induction h with
  | nil => cases hx
  | cons first _ ih =>
    rcases List.mem_cons.1 hx with rfl | hx
    · exact ⟨_, List.mem_cons_self, first⟩
    · obtain ⟨y, hy, rest⟩ := ih hx
      exact ⟨y, List.mem_cons_of_mem _ hy, rest⟩

namespace Act

theorem each_map {γ : Type} (f : α → β) (items : List α) (act : β → Act μ γ) :
    each (items.map f) act = each items fun b => act (f b) := by
  induction items with
  | nil => rfl
  | cons b rest ih => rw [List.map_cons, each_cons, each_cons, ih]

/-- First some items, then others. -/
theorem each_append (items items' : List α) (act : α → Act μ β) : each (items ++ items') act = (do
    let as ← each items act
    let bs ← each items' act
    pure (as ++ bs)) := by
  induction items with
  | nil => simp [each_nil]
  | cons a rest ih => simp [each_cons, ih]

end Act

/-! ### Nodes of parts -/

/-- A node is found in a tree or made there, unless the tree is full. -/
theorem obtain_gets {t : TreeId} {tree : Tree} {parent : NodeKey} (peer : PeerId)
    (ht : w.trees[t]? = some tree) (isParent : tree.IsParent i parent) :
    (∃ a tree' trees log, tree.Gets t peer i a tree' ∧ trees[t]? = some tree' ∧
      obtain t i (some parent) peer w = .done (.ok a) { w with trees := trees, log := log }) ∨
    tree.find? i = none ∧ tree.nodes.nextKey? = none ∧
      obtain t i (some parent) peer w = .done (.error treeFull) w := by
  unfold obtain
  rw [Act.bind_apply, getTree_run ht, Progress.bind]
  cases found : tree.find? i with
  | some a => exact .inl ⟨a, tree, w.trees, w.log, .found found, ht, rfl⟩
  | none =>
    cases next : tree.nodes.nextKey? with
    | none => exact .inr ⟨rfl, rfl, rfl⟩
    | some k =>
      exact .inl ⟨_, _, w.trees.modify t _, _, .made found next isParent, by simp [ht], rfl⟩

namespace Stage

variable {tree tree' : Tree}

theorem Plants.gets (h : s.Plants tree) (gets : tree.Gets s.tree s.peer i a tree') :
    s.Plants tree' where
  alive := gets.alive.trans h.alive
  coherent := gets.coherent h.coherent
  root := by
    obtain ⟨a, root⟩ := Option.isSome_iff_exists.1 h.root
    rw [gets.keeps h.coherent root]
    rfl
  peers {k b} stored own := (gets.stored h.coherent stored).elim (fun old => h.peers old own) id

theorem Since.of_gets (bears : s.Bears E R) (plants : s.Plants tree) (ht : w.trees[s.tree]? = some tree)
    (ht' : w'.trees[s.tree]? = some tree') (gets : tree.Gets s.tree s.peer i a tree') :
    s.Since E [i] w w' where
  grows := ⟨tree, tree', ht, ht', .next (bears.refl _) gets (.still (bears.refl _))⟩
  stays {j b} h := by
    obtain ⟨tree₁, ht₁, found⟩ := h.found
    rw [ht] at ht₁
    cases ht₁
    exact ⟨h.own, tree', ht', gets.keeps plants.coherent found⟩

/-- Nodes of some parts, in order. -/
def Names (s : Stage) (w : World μ) : List Identity → List Adapter → Prop :=
  List.Forall₂ (s.Finds w)

theorem Names.since {parts parts' : List Identity} {nodes : List Adapter}
    (h : s.Names w parts nodes) (since : s.Since E parts' w w') : s.Names w' parts nodes :=
  List.Forall₂.imp (fun _ _ found => since.stays found) h

theorem Names.identities {parts : List Identity} {nodes : List Adapter}
    (h : s.Names w parts nodes) (stands : s.Stands w) : nodes.map Adapter.identity = parts := by
  induction h with
  | nil => rfl
  | cons first _ ih => rw [List.map_cons, first.identity stands, ih]

/-- Each of the nodes is the node of one of the parts. -/
theorem Names.finds {parts : List Identity} {nodes : List Adapter} (h : s.Names w parts nodes)
    (stands : s.Stands w) (hb : b ∈ nodes) : b.identity ∈ parts ∧ s.Finds w b.identity b := by
  obtain ⟨i, mem, found⟩ := forall₂_mem_left (P := flip (s.Finds w)) (List.Forall₂.flip h) hb
  rw [Finds.identity found stands]
  exact ⟨mem, found⟩

/-- The id of the node of a part. -/
def nodeId (s : Stage) (w : World μ) (i : Identity) : NodeId :=
  (((w.trees[s.tree]?).bind (·.find? i)).map fun a => a.key.toRaw).getD 0

/-- Nothing but the tree decides the ids. -/
theorem nodeId_congr (same : w'.trees[s.tree]? = w.trees[s.tree]?) :
    s.nodeId w' = s.nodeId w := by
  unfold nodeId
  rw [same]

theorem Finds.nodeId (h : s.Finds w i a) : s.nodeId w i = a.key.toRaw := by
  obtain ⟨tree, ht, found⟩ := h.found
  simp [Stage.nodeId, ht, found]

/-- Two parts have two ids. -/
theorem Finds.eq_of_nodeId {j : Identity} (ha : s.Finds w i a) (hb : s.Finds w j b) (stands : s.Stands w)
    (same : s.nodeId w i = s.nodeId w j) : i = j := by
  obtain ⟨tree, ht, -, stored, rfl⟩ := ha.stored stands
  obtain ⟨tree', ht', -, stored', rfl⟩ := hb.stored stands
  rw [ht] at ht'
  cases ht'
  rw [ha.nodeId, hb.nodeId] at same
  have keys := congrArg NodeKey.ofRaw same
  rw [NodeKey.ofRaw_toRaw, NodeKey.ofRaw_toRaw] at keys
  rw [keys, stored'] at stored
  cases stored
  rfl

theorem Names.ids {parts : List Identity} {nodes : List Adapter} (h : s.Names w parts nodes) :
    Adapter.ids nodes = parts.map (s.nodeId w) := by
  induction h with
  | nil => rfl
  | cons first _ ih =>
    rw [List.map_cons, first.nodeId, ← ih]
    rfl

/-- A node is written out as the contents say, and its children are there. -/
structure Writes (s : Stage) (w : World μ) (i : Identity) (n : TreeNode) : Prop where
  /-- The children are there. -/
  there : ∀ j ∈ s.grid.branches i, ∃ b, s.Finds w j b
  /-- The contents say so. -/
  written : n = s.grid.written (s.nodeId w) i
  /-- The list of the children of a table found room. -/
  fits : i.role = .table → s.grid.Fits

theorem Writes.of_names {nodes : List Adapter} {n : TreeNode}
    (named : s.Names w (s.grid.branches i) nodes)
    (written : ∀ id, (s.grid.branches i).map id = Adapter.ids nodes → n = s.grid.written id i)
    (fits : i.role = .table → s.grid.Fits) : s.Writes w i n where
  there _ hj := (forall₂_mem_left named hj).imp fun _ h => h.2
  written := written _ named.ids.symm
  fits := fits

/-- Only the table and rows have branches. -/
theorem Writes.of_leaf {id : Identity → NodeId} (leaf : s.grid.branches i = [])
    (other : i.role ≠ .table) : s.Writes w i (s.grid.written id i) where
  there j hj := by
    rw [leaf] at hj
    cases hj
  written := Grid.written_congr (by rw [leaf]; rfl)
  fits isTable := absurd isTable other

theorem Writes.unique {n n' : TreeNode} (h : s.Writes w i n) (h' : s.Writes w i n') : n = n' :=
  h.written.trans h'.written.symm

theorem Writes.since {parts : List Identity} {n : TreeNode} (h : s.Writes w i n)
    (since : s.Since E parts w w') : s.Writes w' i n where
  there _ hj := (h.there _ hj).imp fun _ found => since.stays found
  written := by
    have same : (s.grid.branches i).map (s.nodeId w) = (s.grid.branches i).map (s.nodeId w') := by
      refine List.map_congr_left fun j hj => ?_
      obtain ⟨b, found⟩ := h.there j hj
      rw [found.nodeId, (since.stays found).nodeId]
    rw [h.written, Grid.written_congr same]
  fits := h.fits

end Stage

/-- The node of a part is found where it is. -/
theorem obtain_found {parent : Option NodeKey} {peer : PeerId} (found : s.Finds w i a) :
    obtain s.tree i parent peer w = .done (.ok a) w := by
  obtain ⟨tree, ht, found⟩ := found.found
  unfold obtain
  rw [Act.bind_apply, getTree_run ht, Progress.bind, found]
  rfl

/-- The act that comes to the node of a part. -/
def Stage.node (s : Stage) : Identity → Act μ Adapter
  | .table k => TableAccess.obtain s.tree (.table k) none s.peer
  | .row _ row => rowNode s.tree s.key s.peer row
  | .column _ column => columnNode s.tree s.key s.peer column
  | .cell _ row column => cellNode s.tree s.key s.peer row column

/-- A node lists the nodes of the parts that it counts with one reading. -/
inductive Stage.Tallies (s : Stage) (a : Adapter) (parts : List Identity) :
    Act μ (List Adapter) → Prop where
  /-- It reads how many there are, and if there are some it comes to the node of each. -/
  | counted {item : Room.Item} {question : String} {read : Inquiry (Except Unavailable Nat)}
      {make : Nat → Act μ Adapter} (value : Option Nat)
      (reads : ∀ t : GridTable, t.grid = s.grid → ∃ result,
        read.Reads t result ∧ result.toOption = value)
      (fits : ∀ count, value = some count → s.grid.Fits → Room.Fits item count)
      (makes : ∀ count, value = some count →
        Act.each (List.range count) make = Act.each parts s.node)
      (length : parts.length = value.getD 0) : Tallies s a parts (do
        match ← a.read question read, ← a.hasTree with
        | some count, true => do
          Act.makeRoom item count
          Act.each (List.range count) make
        | _, _ => pure [])

/-- So many parts of a kind are counted, if what they are parts of is there. -/
theorem Stage.Tallies.of_counted {there : Prop} [Decidable there] {item : Room.Item}
    {question : String} {read : Inquiry (Except Unavailable Nat)} {make : Nat → Act μ Adapter}
    {count : Nat} {part : Nat → Identity}
    (reads : ∀ t : GridTable, t.grid = s.grid → ∃ result, read.Reads t result ∧
      result.toOption = if there then some count else none)
    (fits : s.grid.Fits → Room.Fits item count) (makes : ∀ n, make n = s.node (part n)) :
    s.Tallies a (if there then (List.range count).map part else []) (do
      match ← a.read question read, ← a.hasTree with
      | some count, true => do
        Act.makeRoom item count
        Act.each (List.range count) make
      | _, _ => pure []) := by
  refine .counted (if there then some count else none) reads (fun n counted room => ?_)
    (fun n counted => ?_) ?_
  · split at counted
    · cases counted
      exact fits room
    · cases counted
  · split at counted
    · cases counted
      rw [if_pos ‹_›, Act.each_map, funext makes]
    · cases counted
  · split <;> simp

namespace Stage.Finds

theorem tallies_row {row : Nat} (found : s.Finds w (.row s.key row) a) (stands : s.Stands w) :
    s.Tallies a (s.grid.parts (.row s.key row)) (Adapter.Row.cells a row : Act μ _) := by
  refine .of_counted (fun t same => ⟨_, Reading.ofRow_reads row rfl, ?_⟩)
    (fun fits => fits.nodes (Nat.le_add_left _ _)) fun n => ?_
  · rw [← same]
    split <;> rfl
  · rw [found.tree stands, found.tableKey stands, found.peer stands]
    rfl

theorem tallies_column {column : Nat} (found : s.Finds w (.column s.key column) a)
    (stands : s.Stands w) :
    s.Tallies a (s.grid.parts (.column s.key column)) (Adapter.Column.cells a column : Act μ _) := by
  refine .of_counted (fun t same => ⟨_, Reading.ofColumn_reads column rfl, ?_⟩)
    (fun fits => fits.nodes (Nat.le_add_right _ _)) fun n => ?_
  · rw [← same]
    split <;> rfl
  · rw [found.tree stands, found.tableKey stands, found.peer stands]
    rfl

/-- The rows are listed first, and then the columns. -/
theorem lists_parts (found : s.Finds w (.table s.key) a) (stands : s.Stands w) :
    (do
      let rows ← Adapter.Table.rowNodes a s.grid.rows.length
      let columns ← Adapter.Table.columnNodes a s.grid.headers.length
      pure (rows ++ columns) : Act μ _) = Act.each (s.grid.parts (.table s.key)) s.node := by
  rw [Grid.parts, Act.each_append, Act.each_map, Act.each_map, Adapter.Table.rowNodes,
    Adapter.Table.columnNodes, found.tree stands, found.key stands, found.peer stands]
  rfl

end Stage.Finds

namespace Act.Brings

open Stage

variable (bears : s.Bears E R)

include bears

/-- The node of a part of the table is found or made, unless the tree is full. -/
theorem obtain {parent : NodeKey} (ready : s.Ready w) (own : i.tableKey = s.key)
    (isParent : ∀ tree, w.trees[s.tree]? = some tree → tree.IsParent i parent) :
    (TableAccess.obtain s.tree i (some parent) s.peer).Brings s E R [i] (fun a w' => s.Finds w' i a)
      w := by
  obtain ⟨tree, ht, plants⟩ := ready.planted
  rcases obtain_gets s.peer ht (isParent tree ht) with
    ⟨a, tree', trees, log, gets, ht', run⟩ | ⟨free, full, run⟩
  · refine of_done run ⟨⟨ready.peer, ready.presents, ready.rectangular, tree', ht', plants.gets gets⟩,
      ready.responds⟩ (.of_gets bears plants ht ht' gets) ⟨own, tree', ht', ?_⟩
    exact gets.find? plants.coherent
  · refine ⟨?_⟩
    rw [run]
    refine .noNode (List.nil_append [i]).symm (.of_trees bears ready.toStands rfl)
      ⟨tree, ht, full⟩ ?_
    rintro a ⟨-, tree', ht', found⟩
    rw [ht] at ht'
    cases ht'
    rw [free] at found
    cases found

theorem rowNode (ready : s.Ready w) (row : Nat) :
    (TableAccess.rowNode s.tree s.key s.peer row).Brings s E R (Grid.asked (.row s.key row))
      (fun a w' => s.Finds w' (.row s.key row) a) w :=
  obtain bears ready rfl fun _ _ => .row s.key row

theorem columnNode (ready : s.Ready w) (column : Nat) :
    (TableAccess.columnNode s.tree s.key s.peer column).Brings s E R (Grid.asked (.column s.key column))
      (fun a w' => s.Finds w' (.column s.key column) a) w :=
  obtain bears ready rfl fun _ _ => .column s.key column

/-- The node of a cell comes after that of its row. -/
theorem cellNode (ready : s.Ready w) (row column : Nat) :
    (TableAccess.cellNode s.tree s.key s.peer row column).Brings s E R
      (Grid.asked (.cell s.key row column)) (fun a w' => s.Finds w' (.cell s.key row column) a) w := by
  have inOrder : Grid.asked (.cell s.key row column) =
      [.row s.key row] ++ [.cell s.key row column] := rfl
  rw [inOrder]
  refine (rowNode bears ready row).bind bears ?_
  rintro parent w' ready' - found
  refine obtain bears ready' rfl fun tree ht => ?_
  obtain ⟨tree', ht', found⟩ := found.found
  rw [ht] at ht'
  cases ht'
  exact .cell found column

/-- The node of any part. -/
theorem node (ready : s.Ready w) (own : i.tableKey = s.key) :
    (s.node i).Brings s E R (Grid.asked i) (fun a w' => s.Finds w' i a) w := by
  obtain ⟨tree, ht, plants⟩ := ready.planted
  cases i with
  | table k =>
    obtain rfl : k = s.key := own
    obtain ⟨a, found⟩ := Option.isSome_iff_exists.1 plants.root
    have root : s.Finds w (.table s.key) a := ⟨rfl, tree, ht, found⟩
    exact of_done (obtain_found root) ready (.of_gets bears plants ht ht (.found found)) root
  | row k row =>
    obtain rfl : k = s.key := own
    exact rowNode bears ready row
  | column k column =>
    obtain rfl : k = s.key := own
    exact columnNode bears ready column
  | cell k row column =>
    obtain rfl : k = s.key := own
    exact cellNode bears ready row column

/-- The nodes of some parts. -/
theorem nodes {parts : List Identity} (ready : s.Ready w) (own : ∀ j ∈ parts, j.tableKey = s.key) :
    (Act.each parts s.node).Brings s E R (parts.flatMap Grid.asked)
      (fun nodes w' => s.Names w' parts nodes) w :=
  each bears (fun j a w' => s.Finds w' j a) ready (fun since found => since.stays found)
    fun mem ready' _ => node bears ready' (own _ mem)

/-! ### Children -/

/-- The nodes of parts that are counted by one reading. -/
theorem tallied {act : Act μ (List Adapter)} {parts : List Identity} (h : s.Tallies a parts act)
    (ready : s.Ready w) (found : s.Finds w i a) (own : ∀ j ∈ parts, j.tableKey = s.key) :
    act.Brings s E R (parts.flatMap Grid.asked) (fun nodes w' => s.Names w' parts nodes) w := by
  cases h with
  | counted value reads fits makes length =>
    refine (Brings.read bears ready (found.peer ready.toStands) reads).nil_bind bears ?_
    rintro value' w' ready' since rfl
    refine hasTree bears ready'.toStands (since.stays found) ?_
    cases value' with
    | none =>
      obtain rfl := List.eq_nil_of_length_eq_zero length
      exact pure bears ready' .nil
    | some count =>
      refine makeRoom (fits count rfl) (fun some => Grid.asked_ne_nil (length ▸ some)) fun _ => ?_
      rw [makes count rfl]
      exact nodes bears ready' own

/-- The cells of a row, if it is there. -/
theorem rowCells {row : Nat} (ready : s.Ready w) (found : s.Finds w (.row s.key row) a) :
    (Adapter.Row.cells a row).Brings s E R ((s.grid.parts (.row s.key row)).flatMap Grid.asked)
      (fun nodes w' => s.Names w' (s.grid.parts (.row s.key row)) nodes) w :=
  tallied bears (found.tallies_row ready.toStands) ready found fun _ => Grid.tableKey_of_part

/-- The cells of a column, if it is there. -/
theorem columnCells {column : Nat} (ready : s.Ready w) (found : s.Finds w (.column s.key column) a) :
    (Adapter.Column.cells a column).Brings s E R
      ((s.grid.parts (.column s.key column)).flatMap Grid.asked)
      (fun nodes w' => s.Names w' (s.grid.parts (.column s.key column)) nodes) w :=
  tallied bears (found.tallies_column ready.toStands) ready found fun _ => Grid.tableKey_of_part

theorem tableRows (ready : s.Ready w) (found : s.Finds w (.table s.key) a) :
    (Adapter.Table.rows a).Brings s E R
      (((List.range s.grid.rows.length).map (.row s.key)).flatMap Grid.asked)
      (fun nodes w' => s.Names w' ((List.range s.grid.rows.length).map (.row s.key)) nodes) w := by
  refine tallied bears (.counted (some s.grid.rows.length)
    (fun t same => ⟨_, Reading.rowCount_reads, by rw [← same]; rfl⟩) (fun count counted fits => ?_)
    (fun count counted => ?_) (by simp)) ready found (by simp [Identity.tableKey])
  · cases counted
    exact fits.nodes (Nat.le_add_right _ _)
  · cases counted
    rw [Act.each_map, found.tree ready.toStands, found.key ready.toStands, found.peer ready.toStands]
    rfl

theorem tableColumns (ready : s.Ready w) (found : s.Finds w (.table s.key) a) :
    (Adapter.Table.columns a).Brings s E R
      (((List.range s.grid.headers.length).map (.column s.key)).flatMap Grid.asked)
      (fun nodes w' => s.Names w' ((List.range s.grid.headers.length).map (.column s.key)) nodes)
      w := by
  refine tallied bears (.counted (some s.grid.headers.length)
    (fun t same => ⟨_, Reading.columnCount_reads, by rw [← same]; rfl⟩)
    (fun count counted fits => ?_) (fun count counted => ?_) (by simp)) ready found
    (by simp [Identity.tableKey])
  · cases counted
    exact fits.nodes (Nat.le_add_left _ _)
  · cases counted
    rw [Act.each_map, found.tree ready.toStands, found.key ready.toStands, found.peer ready.toStands]
    rfl

/-- The rows and columns of the table. -/
theorem childrenFor {name : Option String} (ready : s.Ready w)
    (found : s.Finds w (.table s.key) a) :
    (Adapter.Table.childrenFor a ⟨name, s.grid.rows.length, s.grid.headers.length⟩).Brings s E R
      ((s.grid.branches (.table s.key)).flatMap Grid.asked)
      (fun nodes w' => s.Names w' (s.grid.branches (.table s.key)) nodes ∧ s.grid.Fits) w := by
  refine hasTree bears ready.toStands found (makeRoom id (fun some => ?_) fun fits => ?_)
  · exact Grid.asked_ne_nil (by simpa [Grid.branches, Grid.parts] using some)
  · rw [found.lists_parts ready.toStands]
    have all := nodes bears ready fun j (mem : j ∈ s.grid.parts (.table s.key)) =>
      Grid.tableKey_of_part mem
    exact all.mono fun _ _ named => ⟨named, fits⟩

theorem shape (ready : s.Ready w) (found : s.Finds w i a) :
    (Adapter.Table.shape a).Brings s E R [] (fun shape _ => shape =
      some ⟨Grid.nonempty? s.grid.name, s.grid.rows.length, s.grid.headers.length⟩) w := by
  refine read bears ready (found.peer ready.toStands) fun t same => ⟨_, Reading.shape_reads, ?_⟩
  rw [← same]
  rfl

/-- The children of a node are the nodes of its parts, -/
theorem children (ready : s.Ready w) (found : s.Finds w i a) :
    a.children.Brings s E R ((s.grid.parts i).flatMap Grid.asked)
      (fun nodes w' => s.Names w' (s.grid.parts i) nodes ∧ (i.role = .table → s.grid.Fits)) w := by
  have own := found.own
  unfold Adapter.children
  rw [found.identity ready.toStands]
  cases i with
  | table k =>
    obtain rfl : k = s.key := own
    show (Adapter.Table.children a).Brings _ _ _ _ _ _
    refine (shape bears ready found).nil_bind bears ?_
    rintro shape w' ready' since rfl
    exact (childrenFor bears ready' (since.stays found)).mono fun _ _ ⟨named, fits⟩ =>
      ⟨named, fun _ => fits⟩
  | row k row =>
    obtain rfl : k = s.key := own
    exact (rowCells bears ready found).mono fun _ _ named => ⟨named, nofun⟩
  | column k column =>
    obtain rfl : k = s.key := own
    exact (columnCells bears ready found).mono fun _ _ named => ⟨named, nofun⟩
  | cell k row column => exact pure bears ready ⟨.nil, nofun⟩

/-- and in the serialized tree of its branches. -/
theorem treeChildren (ready : s.Ready w) (found : s.Finds w i a) :
    a.treeChildren.Brings s E R ((s.grid.branches i).flatMap Grid.asked)
      (fun nodes w' => s.Names w' (s.grid.branches i) nodes ∧ (i.role = .table → s.grid.Fits)) w := by
  unfold Adapter.treeChildren
  rw [found.identity ready.toStands]
  cases i with
  | column k column => exact pure bears ready ⟨.nil, nofun⟩
  | _ => exact children bears ready found

/-! ### Labels and positions -/

/-- An answer that is made of one reading. -/
theorem reading {act : Act μ β} {answer : β} (question : String)
    (read : Inquiry (Except Unavailable α)) (value : Option α) (f : Option α → β)
    (shown : f value = answer) (asks : act = f <$> a.read question read)
    (ready : s.Ready w) (found : s.Finds w i a) (reads : ∀ t : GridTable, t.grid = s.grid →
      ∃ result, read.Reads t result ∧ result.toOption = value) :
    act.Brings s E R [] (fun result _ => result = answer) w := by
  rw [asks]
  refine (Brings.read bears ready (found.peer ready.toStands) reads).map bears ?_
  rintro result w' - - rfl
  exact shown

theorem label (ready : s.Ready w) (found : s.Finds w i a) :
    a.label.Brings s E R [] (fun label _ => label = s.grid.label i) w := by
  unfold Adapter.label
  rw [found.identity ready.toStands]
  cases i with
  | table k =>
    show (Adapter.Table.label a).Brings _ _ _ _ _ _
    rw [Adapter.Table.label, ← map_eq_pure_bind]
    refine (shape bears ready found).map bears ?_
    rintro shape w' - - rfl
    rfl
  | row k row => exact pure bears ready rfl
  | column k column =>
    refine reading bears "header_text" (Reading.headerText column)
      (if column < s.grid.headers.length then some (s.grid.header? column) else none)
      Option.join ?_ ?_ ready found ?_
    · split
      · rfl
      · simp [Grid.label, Grid.header?, ‹¬_›]
    · simp only [Adapter.Column.header, Adapter.Column.tryHeader, Adapter.tryRead, Adapter.read,
        Reading.headerText, map_eq_pure_bind, bind_assoc]
    · refine fun t same => ⟨_, Reading.ofColumn_reads column rfl, ?_⟩
      rw [← same]
      split <;> rfl
  | cell k row column =>
    refine reading bears "text" _ _ (fun snapshot => snapshot.bind CellText.text) ?_ ?_ ready found
      (Stage.cell_reads ready.rectangular row column)
    · rw [Grid.label]
      cases s.grid.cell? row column <;> rfl
    · simp only [Adapter.Cell.text, Adapter.Cell.snapshot, Adapter.Cell.trySnapshot,
        Adapter.read, map_eq_pure_bind, bind_assoc]

/-- The index of a row, if it is there. -/
theorem rowIndex {k : NodeKey} {row : Nat} (ready : s.Ready w) (found : s.Finds w (.row k row) a) :
    (Adapter.Row.index a row).Brings s E R []
      (fun index _ => index = if row < s.grid.rows.length then some row else none) w := by
  refine read bears ready (found.peer ready.toStands) fun t same => ?_
  refine ⟨_, Reading.ofRow_reads row rfl, ?_⟩
  rw [← same]
  split <;> rfl

/-- The header of a column, if it is there. -/
theorem columnHeader (question : String) {k : NodeKey} {column : Nat} (ready : s.Ready w)
    (found : s.Finds w (.column k column) a) :
    (a.read question (Reading.headerText column)).Brings s E R [] (fun header _ => header =
      if column < s.grid.headers.length then some (s.grid.header? column) else none) w := by
  refine read bears ready (found.peer ready.toStands) fun t same => ?_
  refine ⟨_, Reading.ofColumn_reads column rfl, ?_⟩
  rw [← same]
  split <;> rfl

/-- What a cell holds, if it is there. -/
theorem snapshot (question : String) {k : NodeKey} {row column : Nat} (ready : s.Ready w)
    (found : s.Finds w (.cell k row column) a) :
    (Adapter.Cell.snapshot a question row column).Brings s E R [] (fun snapshot _ => snapshot =
      (s.grid.cell? row column).map fun text => ⟨some text, s.grid.header? column⟩) w :=
  read bears ready (found.peer ready.toStands) fun t same =>
    Stage.cell_reads ready.rectangular row column t same

/-- The position of a node that is there. -/
theorem indexInParent (ready : s.Ready w) (found : s.Finds w i a) (there : s.grid.Includes i) :
    a.indexInParent.Brings s E R [] (fun index _ => index = i.position) w := by
  unfold Adapter.indexInParent
  rw [found.identity ready.toStands]
  cases i with
  | table k => exact pure bears ready rfl
  | row k row =>
    refine (rowIndex bears ready found).mono ?_
    rintro index w' - - rfl
    exact if_pos there
  | column k column =>
    refine read bears ready (found.peer ready.toStands) fun t same => ?_
    refine ⟨_, Reading.ofColumn_reads column rfl, ?_⟩
    rw [same]
    exact congrArg Except.toOption (if_pos there)
  | cell k row column =>
    refine reading bears "column_index" _ _ (Option.map fun _ => column) ?_ ?_ ready found
      (Stage.cell_reads ready.rectangular row column)
    · obtain ⟨text, e⟩ := Option.isSome_iff_exists.1
        ((ready.rectangular.cell?_isSome row column).2 there)
      rw [e]
      rfl
    · simp only [Adapter.Cell.columnIndex, Adapter.Cell.snapshot, Adapter.Cell.trySnapshot,
        Adapter.read, map_eq_pure_bind, bind_assoc]

/-- The table is found to be there. -/
theorem isValid (ready : s.Ready w) (found : s.Finds w i a) :
    a.isValid.Brings s E R [] (fun valid _ => valid = true) w := by
  obtain ⟨owner, table, -⟩ := ready.presents
  unfold Adapter.isValid Peer.isValid
  rw [found.peer ready.toStands]
  refine get ?_
  simp only [ready.peer, table, Bool.false_eq_true, if_false, Option.isNone_some]
  refine (query bears (P := fun result => result = .ok ()) ready fun t _ =>
    ⟨_, Reading.nothing_reads, rfl⟩).nil_bind bears ?_
  rintro result w' ready' - rfl
  exact pure bears ready' rfl

/-! ### Nodes written out -/

/-- A column is written out, if it is there, -/
theorem buildColumn (id : Identity → NodeId) {k : NodeKey} {column : Nat} (ready : s.Ready w)
    (found : s.Finds w (.column k column) a) : (Adapter.buildColumn a column).Brings s E R []
      (fun result _ => result = if column < s.grid.headers.length then
        some (s.grid.written id (.column k column)) else none) w := by
  have header := columnHeader bears "build_accessible_node" ready found
  unfold Adapter.read at header
  unfold Adapter.buildColumn Adapter.Column.tryHeader
  rw [← bind_assoc, Adapter.role, found.identity ready.toStands]
  refine header.nil_bind bears ?_
  rintro header w₁ ready₁ - rfl
  split
  · exact pure bears ready₁ rfl
  · exact pure bears ready₁ rfl

/-- and so is a cell. -/
theorem buildCell (id : Identity → NodeId) {k : NodeKey} {row column : Nat} (ready : s.Ready w)
    (found : s.Finds w (.cell k row column) a) : (Adapter.buildCell a row column).Brings s E R []
      (fun result _ => result = if row < s.grid.rows.length ∧ column < s.grid.headers.length then
        some (s.grid.written id (.cell k row column)) else none) w := by
  have whole := ready.rectangular.cell?_isSome row column
  unfold Adapter.buildCell
  rw [Adapter.role, found.identity ready.toStands]
  refine (snapshot bears _ ready found).nil_bind bears ?_
  rintro snapshot w₁ ready₁ - rfl
  cases e : s.grid.cell? row column with
  | some text =>
    rw [if_pos (whole.1 (by rw [e]; rfl)), Grid.written, e]
    exact pure bears ready₁ rfl
  | none =>
    rw [if_neg fun there => by simpa [e] using whole.2 there]
    exact pure bears ready₁ rfl

/-- A node that is there is written out as the contents say. -/
theorem build (ready : s.Ready w) (found : s.Finds w i a) (there : s.grid.Includes i) :
    a.build.Brings s E R ((s.grid.branches i).flatMap Grid.asked)
      (fun result w' => ∃ n, result = some n ∧ s.Writes w' i n) w := by
  have identity := found.identity ready.toStands
  unfold Adapter.build
  rw [identity]
  cases i with
  | table k =>
    obtain rfl : k = s.key := found.own
    show (Adapter.buildTable a).Brings _ _ _ _ _ _
    refine (shape bears ready found).nil_bind bears ?_
    rintro shape w₁ ready₁ since rfl
    refine (childrenFor bears ready₁ (since.stays found)).bind_nil bears ?_
    rintro nodes w₂ ready₂ - ⟨named, fits⟩
    refine pure bears ready₂ ⟨_, rfl, .of_names named (fun id ids => ?_) fun _ => fits⟩
    rw [Grid.written, ids, Adapter.role, identity]
    rfl
  | row k row =>
    obtain rfl : k = s.key := found.own
    show (Adapter.buildRow a row).Brings _ _ _ _ _ _
    refine (rowIndex bears ready found).nil_bind bears ?_
    rintro index w₁ ready₁ since rfl
    have inRows : row < s.grid.rows.length := there
    rw [if_pos inRows]
    refine (rowCells bears ready₁ (since.stays found)).bind_nil bears ?_
    rintro nodes w₂ ready₂ - named
    refine pure bears ready₂ ⟨_, rfl, .of_names named (fun id ids => ?_)
      fun isTable => by cases isTable⟩
    rw [Grid.written, ids, Adapter.role, identity]
    rfl
  | column k column =>
    refine (buildColumn bears (s.nodeId w) ready found).mono ?_
    rintro result w' - - rfl
    exact ⟨_, if_pos there, .of_leaf rfl fun isTable => by cases isTable⟩
  | cell k row column =>
    refine (buildCell bears (s.nodeId w) ready found).mono ?_
    rintro result w' - - rfl
    exact ⟨_, if_pos there, .of_leaf rfl fun isTable => by cases isTable⟩

/-- A node whose part is not there is not written out. -/
theorem buildGone (ready : s.Ready w) (found : s.Finds w i a) (gone : ¬s.grid.Includes i) :
    a.build.Brings s E R [] (fun result _ => result = none) w := by
  unfold Adapter.build
  rw [found.identity ready.toStands]
  cases i with
  | table k => exact absurd trivial gone
  | row k row =>
    refine (rowIndex bears ready found).nil_bind bears ?_
    rintro index w₁ ready₁ - rfl
    have past : ¬row < s.grid.rows.length := gone
    rw [if_neg past]
    exact pure bears ready₁ rfl
  | column k column =>
    refine (buildColumn bears (s.nodeId w) ready found).mono ?_
    rintro result w' - - rfl
    exact if_neg gone
  | cell k row column =>
    refine (buildCell bears (s.nodeId w) ready found).mono ?_
    rintro result w' - - rfl
    exact if_neg gone

end Act.Brings

end TableAccess
