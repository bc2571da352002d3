import TableAccess.Proofs.Looking
import TableAccess.Proofs.Navigation
import TableAccess.Proofs.Serialized

/-!
# Nodes that come back

A node of a column that is not there any more waits in its tree. Whoever asks for the column when it is
back gets that node and no other, from the table itself, among the children of a node, or in an update:
identities lead to nodes, and nothing but taking out a table takes a node away from its identity.

## The model

* `Act.Lists` — what every run of an act yields is in the tree.
* `World.Refinds` — whoever asks for the part of a node, of whatever table, gets no other node.
* `Stage.Returns` — if the part is there, the node is what comes of it.
* `looking_disturbs_nothing` — the main statement.
-/

namespace TableAccess

variable {μ α : Type} {M : Mutations} {R : World μ → World μ → Prop} {w w' : World μ} {t : TreeId}
  {a b x : Adapter} {i j : Identity} {s : Stage} {E : Tree → Tree → Prop}

/-! ### Nodes that are found again -/

/-- Two nodes of a tree that stand for the same are one. -/
theorem World.Holds.eq_of_identity (ha : w.Holds t a) (hx : w.Holds t x)
    (same : x.identity = a.identity) : x = a := by
  obtain ⟨tree, ht, coherent, stored⟩ := ha
  obtain ⟨tree', ht', -, stored'⟩ := hx
  cases ht.symm.trans ht'
  rw [coherent.indexed.eq_of_identity stored' stored same] at stored'
  exact Option.some.inj (stored'.symm.trans stored)

section Finding

variable (others : ∀ {w w' : World μ}, R w w' → World.Retains t w w')

include others

/-- What a table yields for a part is the node of the part. -/
theorem Adapter.Table.nodeIf_run {question : String} {read : Inquiry (Except Unavailable Bool)}
    {make : Act μ Adapter} (makes : make.Finds R t i)
    (run : (do Adapter.Table.nodeIf b (← b.read question read) make).Ends R w (.ok (some x)) w')
    (ha : w.Holds t a) (same : a.identity = i) : x = a := by
  obtain ⟨present, w₁, reading, run⟩ := run.bind_ok
  have ha := (read_retains others question read).run reading |>.holds ha
  unfold nodeIf at run
  split at run
  · obtain ⟨held, w₂, looking, run⟩ := run.bind_ok
    have ha := hasTree_retains.run looking |>.holds ha
    split at run
    · obtain ⟨y, w₃, making, run⟩ := run.bind_ok
      obtain ⟨e, rfl⟩ := run.pure
      cases e
      obtain ⟨hx, stands⟩ := makes.found making ha.sound
      exact (makes.retains.run making |>.holds ha).eq_of_identity hx (stands.trans same.symm)
    · cases run.pure.1
  · cases run.pure.1

/-- Every run of an act yields nodes that are in a tree. -/
structure Act.Lists (R : World μ → World μ → Prop) (t : TreeId) (act : Act μ (List Adapter)) :
    Prop where
  /-- The tree keeps its nodes. -/
  retains : act.Retains R t
  /-- Those it yields are there. -/
  there : ∀ {w w' : World μ} {nodes : List Adapter}, act.Ends R w (.ok nodes) w' → w.Sound t →
    ∀ x ∈ nodes, w'.Holds t x

omit others in
theorem Act.Lists.nil : (pure [] : Act μ _).Lists R t := by
  refine ⟨.pure [], fun run _ x mem => ?_⟩
  obtain ⟨e, -⟩ := run.pure
  cases e
  cases mem

namespace Adapter

/-- Parts that are counted by one reading. -/
theorem counted_lists {item : Room.Item} {question : String}
    {read : Inquiry (Except Unavailable Nat)} {make : Nat → Act μ Adapter}
    {identity : Nat → Identity} (finds : ∀ n, (make n).Finds R t (identity n)) :
    Act.Lists R t (do
      match ← b.read question read, ← b.hasTree with
      | some n, true => do
        Act.makeRoom item n
        Act.each (List.range n) make
      | _, _ => pure []) where
  retains := counted_retains (read_retains others question read) finds
  there run sound := by
    obtain ⟨n, -, there⟩ := counted_run (read_retains others question read) finds run sound
    exact there

theorem Table.rows_lists (here : b.tree = t) : (Table.rows b : Act μ _).Lists R t :=
  counted_lists others fun row => Table.rowNodes_finds here row

theorem Table.columns_lists (here : b.tree = t) : (Table.columns b : Act μ _).Lists R t :=
  counted_lists others fun column => Table.columnNodes_finds here column

/-- The children of a node are in its tree. -/
theorem children_lists (here : b.tree = t) : (b.children : Act μ _).Lists R t := by
  unfold children
  split
  · have shape := read_retains others (a := b) "shape" Reading.shape
    refine ⟨shape.bind fun value => ?_, fun run sound => ?_⟩
    · split
      · exact Table.childrenFor_retains here _
      · exact .pure []
    · obtain ⟨value, w₁, reading, run⟩ := run.bind_ok
      split at run
      · exact (Table.childrenFor_run here run ((shape.run reading).sound sound)).2
      · exact Act.Lists.nil.there run ((shape.run reading).sound sound)
  · exact counted_lists others fun column => cells_finds here _ column
  · exact counted_lists others fun row => cells_finds here row _
  · exact .nil

end Adapter

omit others in
/-- A node that such an act yields is the one that was there. -/
theorem Act.Lists.eq_of_identity {act : Act μ (List Adapter)} {nodes : List Adapter}
    (lists : act.Lists R t) (run : act.Ends R w (.ok nodes) w') (ha : w.Holds t a) (mem : x ∈ nodes)
    (same : x.identity = a.identity) : x = a :=
  ((lists.retains.run run).holds ha).eq_of_identity (lists.there run ha.sound x mem) same

omit others in
theorem dropDangling_retains (nodes : List (NodeId × TreeNode)) :
    (dropDangling nodes : Act μ _).Retains R t := by
  refine .each fun n => ?_
  unfold keepWritten
  dsimp only
  split
  · exact .pure _
  · exact (Act.Retains.tell _).bind fun _ => .pure _

/-- Whoever writes out a tree writes out nodes that are in it. -/
theorem buildTreeUpdate_run {k : NodeKey} {u : Update} {id : NodeId}
    (run : (buildTreeUpdate t k).Ends R w (.ok (some u)) w') (ha : w.Holds t a)
    (mem : id ∈ u.nodes.map Prod.fst) : ∃ x, x.key.toRaw = id ∧ w'.Holds t x ∧ w'.Holds t a := by
  obtain ⟨ns, w₁, visiting, run⟩ := run.tell.bind_ok
  obtain ⟨tree, ht, coherent, stored⟩ := ha
  split at run
  · cases run.tell.pure.1
  · rename_i written
    obtain ⟨nodes, w₂, dropping, run⟩ := Act.Ends.bind_ok run
    obtain ⟨e, rfl⟩ := run.tell.pure
    cases e
    -- what is left out of a list of children changes no node that was written out
    rw [dropDangling_run dropping, List.map_map] at mem
    have dropped : World.Retains t w₁ (w₂.tell (.updateBuilt k.toRaw nodes.length)) :=
      ((dropDangling_retains ns).run dropping).trans (.of_trees rfl)
    cases root : tree.get? k with
    | none =>
      rcases visiting.getTree with ⟨tree', ht', visiting⟩ | ⟨⟨p, e⟩, -⟩
      · cases ht.symm.trans ht'
        simp only [root] at visiting
        obtain ⟨e, -⟩ := visiting.pure
        cases e
        exact absurd rfl written
      · cases e
    | some b =>
      have own := coherent.indexed.key root
      have holds : (w.tell (.span .treeUpdate)).Holds t b := ⟨tree, ht, coherent, own ▸ root⟩
      obtain ⟨attempts, rfl, visited⟩ := visit_run others holds b.identity.levels_le (own ▸ visiting)
      obtain ⟨-, -, x, hx, key, -⟩ := visited.covered id ((ids_built_sublist attempts).subset mem)
      refine ⟨x, key, dropped.holds hx, dropped.holds (visited.retains.holds ?_)⟩
      exact ⟨tree, ht, coherent, stored⟩

end Finding

/-- Whoever asks for the node of a part finds this one, if it is the node of that part. -/
structure World.Refinds (R : World μ → World μ → Prop) (w : World μ) (a : Adapter) : Prop where
  /-- The table yields it for its column, -/
  column : ∀ {b x : Adapter} {w' : World μ} {c : Nat}, b.tree = a.tree →
    a.identity = .column b.key c → (Adapter.Table.column b c).Ends R w (.ok (some x)) w' → x = a
  /-- its row -/
  row : ∀ {b x : Adapter} {w' : World μ} {r : Nat}, b.tree = a.tree →
    a.identity = .row b.key r → (Adapter.Table.row b r).Ends R w (.ok (some x)) w' → x = a
  /-- or its cell. -/
  cell : ∀ {b x : Adapter} {w' : World μ} {r c : Nat}, b.tree = a.tree →
    a.identity = .cell b.key r c → (Adapter.Table.cell b r c).Ends R w (.ok (some x)) w' → x = a
  /-- It is among the children of a node, the rows and the columns of a table, if something is that
  stands for the same, -/
  listed : ∀ {b x : Adapter} {act : Act μ (List Adapter)} {nodes : List Adapter} {w' : World μ},
    b.tree = a.tree →
    act = b.children ∨ act = b.treeChildren ∨ act = Adapter.Table.rows b ∨ act = Adapter.Table.columns b →
    act.Ends R w (.ok nodes) w' → x ∈ nodes → x.identity = a.identity → x = a
  /-- also where a node is written out with its children -/
  written : ∀ {b : Adapter} {n : TreeNode} {w' : World μ}, w.Holds a.tree b →
    b.build.Ends R w (.ok (some n)) w' → ∀ id ∈ n.children,
      ∃ x, x.key.toRaw = id ∧ w'.Holds a.tree x ∧ (x.identity = a.identity → x = a)
  /-- and where all nodes are. -/
  update : ∀ {k : NodeKey} {u : Update} {w' : World μ},
    (buildTreeUpdate a.tree k).Ends R w (.ok (some u)) w' → ∀ id ∈ u.nodes.map Prod.fst,
      ∃ x, x.key.toRaw = id ∧ w'.Holds a.tree x ∧ (x.identity = a.identity → x = a)

/-- A node that is in its tree is found again as long as the others take nothing out of the tree. -/
theorem World.Holds.refinds (h : w.Holds a.tree a)
    (others : ∀ {w w' : World μ}, R w w' → World.Retains a.tree w w') : w.Refinds R a where
  column here same run :=
    Adapter.Table.nodeIf_run others (Adapter.Table.columnNodes_finds here _) run h same
  row here same run := Adapter.Table.nodeIf_run others (Adapter.Table.rowNodes_finds here _) run h same
  cell {b x w' r c} here same run := by
    have finds : (cellNode b.tree b.key b.peer r c : Act μ _).Finds R a.tree (.cell b.key r c) := by
      rw [here]
      exact cellNode_finds _ _ r c
    exact Adapter.Table.nodeIf_run others finds run h same
  listed {b x act nodes w'} here which run mem same := by
    have lists : act.Lists R a.tree := by
      rcases which with rfl | rfl | rfl | rfl
      · exact Adapter.children_lists others here
      · unfold Adapter.treeChildren
        split
        · exact .nil
        · exact Adapter.children_lists others here
      · exact Adapter.Table.rows_lists others here
      · exact Adapter.Table.columns_lists others here
    exact lists.eq_of_identity run h mem same
  written {b n w'} hb run id mem := by
    obtain ⟨nodes, children, there, -⟩ := Adapter.build_lists others hb run
    rw [children] at mem
    obtain ⟨x, listed, rfl⟩ := List.mem_map.1 mem
    have stays := ((Adapter.build_retains others hb.here).run run).holds h
    exact ⟨x, rfl, there x listed, stays.eq_of_identity (there x listed)⟩
  update run id mem := by
    obtain ⟨x, key, hx, stays⟩ := buildTreeUpdate_run others run h mem
    exact ⟨x, key, hx, stays.eq_of_identity hx⟩

/-! ### Nodes of parts that are there -/

namespace Reading

variable {g : GridTable} {row column : Nat}

/-- A row that is there is found to be there, -/
theorem hasRow_of_lt (there : row < g.grid.rows.length) : (hasRow row).Reads g (.ok true) :=
  ⟨congrArg (fun found => Except.ok (Except.ok found)) (decide_eq_true there), by simp⟩

/-- so is a column -/
theorem hasColumn_of_lt (there : column < g.grid.headers.length) :
    (hasColumn column).Reads g (.ok true) :=
  ⟨congrArg (fun found => Except.ok (Except.ok found)) (decide_eq_true there), by simp⟩

/-- and a cell. -/
theorem hasCell_of_lt (inRow : row < g.grid.rows.length) (inColumn : column < g.grid.headers.length) :
    (hasCell row column).Reads g (.ok true) := by
  have hasRow : (Inquiry.question (.isRow row)).eval g.answer = .ok true :=
    congrArg Except.ok (decide_eq_true inRow)
  refine ⟨?_, by simp⟩
  unfold hasCell ofInquiry
  rw [Inquiry.eval_bind, Inquiry.eval_bind, hasRow]
  exact congrArg (fun found => Except.ok (Except.ok found)) (decide_eq_true inColumn)

end Reading

namespace Act.Brings

open Stage

variable (bears : s.Bears E R)

include bears

/-- A node that is found at once. -/
theorem found {make : Act μ Adapter} (ready : s.Ready w) (run : make w = .done (.ok a) w) :
    make.Brings s E R [] (fun b _ => b = a) w :=
  of_done run ready (.of_trees bears ready.toStands rfl) rfl

/-- The table yields the node of a part that is there. -/
theorem yields {question : String} {read : Inquiry (Except Unavailable Bool)} {make : Act μ Adapter}
    {parts : List Identity} {Q : Adapter → World μ → Prop}
    (ready : s.Ready w) (root : s.Finds w (.table s.key) x)
    (reads : ∀ t : GridTable, t.grid = s.grid → read.Reads t (.ok true))
    (makes : ∀ {w'}, s.Ready w' → s.Since E [] w w' → make.Brings s E R parts Q w') :
    (do Adapter.Table.nodeIf x (← x.read question read) make).Brings s E R parts
      (fun result w' => ∃ a, result = some a ∧ Q a w') w := by
  refine (Brings.read bears ready (root.peer ready.toStands) fun t same =>
    ⟨_, reads t same, rfl⟩).nil_bind bears ?_
  rintro present w₁ ready₁ since rfl
  unfold Adapter.Table.nodeIf
  rw [Except.toOption, if_pos rfl]
  refine hasTree bears ready₁.toStands (since.stays root) ?_
  rw [if_pos rfl]
  refine (makes ready₁ since).bind_nil bears ?_
  rintro a w₂ ready₂ - holds
  exact pure bears ready₂ ⟨a, rfl, holds⟩

/-- If the part has a node, it yields this one. -/
theorem nodeIf {question : String} {read : Inquiry (Except Unavailable Bool)} {make : Act μ Adapter}
    (ready : s.Ready w) (root : s.Finds w (.table s.key) x) (here : s.Finds w i a)
    (reads : ∀ t : GridTable, t.grid = s.grid → read.Reads t (.ok true))
    (makes : ∀ {w'}, s.Ready w' → s.Finds w' i a → make w' = .done (.ok a) w') :
    (do Adapter.Table.nodeIf x (← x.read question read) make).Brings s E R []
      (fun result _ => result = some a) w := by
  refine (yields bears ready root reads fun ready' since =>
    found bears ready' (makes ready' (since.stays here))).mono ?_
  rintro result w' - - ⟨b, rfl, rfl⟩
  rfl

theorem tableColumn {column : Nat} (ready : s.Ready w) (root : s.Finds w (.table s.key) x)
    (here : s.Finds w (.column s.key column) a) (there : column < s.grid.headers.length) :
    (Adapter.Table.column x column).Brings s E R [] (fun result _ => result = some a) w := by
  refine nodeIf bears ready root here (fun _ same => Reading.hasColumn_of_lt (same ▸ there))
    fun _ here => ?_
  rw [root.tree ready.toStands, root.key ready.toStands]
  exact obtain_found here

theorem tableRow {row : Nat} (ready : s.Ready w) (root : s.Finds w (.table s.key) x)
    (here : s.Finds w (.row s.key row) a) (there : row < s.grid.rows.length) :
    (Adapter.Table.row x row).Brings s E R [] (fun result _ => result = some a) w := by
  refine nodeIf bears ready root here (fun _ same => Reading.hasRow_of_lt (same ▸ there))
    fun _ here => ?_
  rw [root.tree ready.toStands, root.key ready.toStands]
  exact obtain_found here

theorem tableCell {row column : Nat} (ready : s.Ready w) (root : s.Finds w (.table s.key) x)
    (here : s.Finds w (.cell s.key row column) a)
    (there : row < s.grid.rows.length ∧ column < s.grid.headers.length) :
    (Adapter.Table.cell x row column).Brings s E R [] (fun result _ => result = some a) w := by
  refine nodeIf bears ready root here
    (fun _ same => Reading.hasCell_of_lt (same ▸ there.1) (same ▸ there.2)) fun ready' here => ?_
  rw [root.tree ready.toStands, root.key ready.toStands, root.peer ready.toStands]
  exact here.node_run ready'.toStands

end Act.Brings

/-- The part of a node is there, and whoever asks for it gets the node. -/
structure Stage.Returns (s : Stage) (w : World μ) (a : Adapter) : Prop where
  /-- The table yields the node for its column, -/
  column : ∀ {x : Adapter} {c : Nat}, s.Finds w (.table s.key) x → a.identity = .column s.key c →
    (Adapter.Table.column x c).Brings s s.Keeps (s.Calm s.Keeps) [] (fun result _ => result = some a) w
  /-- its row -/
  row : ∀ {x : Adapter} {r : Nat}, s.Finds w (.table s.key) x → a.identity = .row s.key r →
    (Adapter.Table.row x r).Brings s s.Keeps (s.Calm s.Keeps) [] (fun result _ => result = some a) w
  /-- or its cell, and makes no node for that. -/
  cell : ∀ {x : Adapter} {r c : Nat}, s.Finds w (.table s.key) x → a.identity = .cell s.key r c →
    (Adapter.Table.cell x r c).Brings s s.Keeps (s.Calm s.Keeps) []
      (fun result _ => result = some a) w
  /-- The node is one of the rows of the table -/
  rows : ∀ {x : Adapter} {r : Nat}, s.Finds w (.table s.key) x → a.identity = .row s.key r →
    (Adapter.Table.rows x).Brings s s.Keeps (s.Calm s.Keeps)
      (((List.range s.grid.rows.length).map (.row s.key)).flatMap Grid.asked) (fun nodes _ => a ∈ nodes) w
  /-- or of the columns, -/
  columns : ∀ {x : Adapter} {c : Nat}, s.Finds w (.table s.key) x → a.identity = .column s.key c →
    (Adapter.Table.columns x).Brings s s.Keeps (s.Calm s.Keeps)
      (((List.range s.grid.headers.length).map (.column s.key)).flatMap Grid.asked)
      (fun nodes _ => a ∈ nodes) w
  /-- and a child of each node that the part belongs to. -/
  children : ∀ {i : Identity} {x : Adapter}, s.Finds w i x → a.identity ∈ s.grid.parts i →
    x.children.Brings s s.Keeps (s.Calm s.Keeps) ((s.grid.parts i).flatMap Grid.asked)
      (fun nodes _ => a ∈ nodes) w
  /-- It is written out under its key, as the contents say. -/
  update : (buildTreeUpdate s.tree s.key).Brings s s.Keeps (s.Calm s.Keeps)
    (s.grid.sown Adapter.levels (.table s.key)) (fun result w' => ∃ u, result = some u ∧
      (a.key.toRaw, s.grid.written (s.nodeId w') a.identity) ∈ u.nodes) w

/-- A node whose part is there comes back. -/
theorem Stage.Ready.returns (ready : s.Ready w) (stored : s.Stores w a)
    (there : s.grid.Includes a.identity) : s.Returns w a := by
  have bears := Keeps.bears (μ := μ) s
  have here := stored.finds ready.toStands
  -- the node of the part is the node that is there, also among others
  have among : ∀ {parts asked : List Identity} {act : Act μ (List Adapter)},
      a.identity ∈ parts →
      act.Brings s s.Keeps (s.Calm s.Keeps) asked (fun nodes w' => s.Names w' parts nodes) w →
      act.Brings s s.Keeps (s.Calm s.Keeps) asked (fun nodes _ => a ∈ nodes) w := fun mem brings =>
    brings.mono fun _ since named => by
      obtain ⟨b, hb, found⟩ := forall₂_mem_left named mem
      exact (since.stays here).unique found ▸ hb
  refine ⟨fun {x c} root same => ?_, fun {x r} root same => ?_, fun {x r c} root same => ?_,
    fun {x r} root same => ?_, fun {x c} root same => ?_, fun found mem => ?_, ?_⟩
  · rw [same] at here there
    exact .tableColumn bears ready root here there
  · rw [same] at here there
    exact .tableRow bears ready root here there
  · rw [same] at here there
    exact .tableCell bears ready root here there
  · rw [same] at there
    refine among (same ▸ ?_) (.tableRows bears ready root)
    exact List.mem_map.2 ⟨r, List.mem_range.2 there, rfl⟩
  · rw [same] at there
    refine among (same ▸ ?_) (.tableColumns bears ready root)
    exact List.mem_map.2 ⟨c, List.mem_range.2 there, rfl⟩
  · exact among mem ((Act.Brings.children bears ready found).mono fun _ _ named => named.1)
  · obtain ⟨x, root⟩ := ready.root
    refine (Act.Brings.buildTreeUpdate bears ready root).mono ?_
    rintro result w' - since ⟨u, rfl, serializes⟩
    refine ⟨u, rfl, ?_⟩
    rw [serializes.update]
    refine List.mem_map.2 ⟨a.identity, Grid.mem_serial.2 ⟨here.own, there⟩, ?_⟩
    rw [(since.stays here).nodeId]

/-! ### The guarantee -/

/-- Looking at tables disturbs nothing. -/
structure Undisturbing (μ : Type) : Prop where
  /-- At every moment that can come to be all trees are coherent. -/
  reachable : ∀ {m : Moment μ}, m.Lived → m.world.Coherent
  /-- Whoever asks for things with which no table is attached and none is taken out, and mutates tables
  meanwhile, adds nodes of rows, columns and cells and latches peers; the tables are mutated and asked,
  and that is all. -/
  acts : ∀ {M : Mutations} {α : Type} {act : Act μ α}, act.Looking M →
    act.Keeps (.looking M) (fun _ => True) fun _ => True
  /-- And so it is with all threads together, however they take turns: every node stays under its key,
  with what it stands for, its parent and its peer. -/
  turns : ∀ {M : Mutations} {s s' : Timeline μ}, s.toAgenda.Looking M → s.world.Coherent →
    s.Reaches s' → s.world.Extends M s'.world ∧ s'.world.Coherent
  /-- An editable table that nobody mutates is as it was. -/
  contents : ∀ {M : Mutations} {w w' : World μ} {t : TableId} {g : GridTable},
    (∀ table later, ¬M t table later) → w.Extends M w' → w.table? t = some (.grid g) →
    w'.table? t = some (.grid g)
  /-- A node is in its tree still, and whoever gets a node for the same part gets this one. -/
  again : ∀ {M : Mutations} {w w' : World μ} {a : Adapter}, w.Holds a.tree a → w.Extends M w' →
    w'.Coherent → w'.Holds a.tree a ∧ w'.Refinds (World.Retains a.tree) a
  /-- Whatever has become of the table meanwhile, when the part is there, whoever asks for it gets the
  node. -/
  returns : ∀ {M : Mutations} {w : World μ} {m : Moment μ} {s : Stage} {a : Adapter},
    s.Stores w a → w.Extends M m.world → m.Lived → s.Set m → s.grid.Includes a.identity →
    s.Returns m.world a

/-- **Looking disturbs nothing.** Whoever looks at tables, while they are mutated, leaves every node
where it is, and a node whose part goes away is what there is when the part comes back. -/
theorem looking_disturbs_nothing : Undisturbing μ where
  reachable h := fun ht => h.coherent ht
  acts looking := looking.keeps
  turns looking coherent later :=
    (later.leaves Conduct.looking_lasting looking.keeps coherent).1
  contents unmutated grown ht := (ht ▸ grown.tables _).eq_of_unmutated unmutated
  again {M w w' a} holds grown coherent := by
    obtain ⟨tree, ht, -, stored⟩ := holds
    obtain ⟨tree', ht', grows⟩ := grown.tree ht
    have holds' : w'.Holds a.tree a := ⟨tree', ht', coherent ht', grows.stays stored⟩
    exact ⟨holds', holds'.refinds id⟩
  returns {M w m s a} stored grown lived set there := by
    obtain ⟨own, tree, ht, stored⟩ := stored
    obtain ⟨tree', ht', grows⟩ := grown.tree ht
    exact (set.ready lived).returns ⟨own, tree', ht', grows.stays stored⟩ there

/-- A table with some contents whose first column has a node, seen from the thread of its context. -/
def World.withColumn (g : Grid) : World Unit :=
  { (World.attached () (.toolkit 0) (.start .default) (.grid (.ofGrid g))).modifyTree 0 (·.add
      ⟨Arena.keyAt 1 1, .column (Arena.keyAt 0 1) 0, some (Arena.keyAt 0 1), 0, 0⟩) with
    tables := [some (.grid (.ofGrid g))] }

/-- The table is edited, and nothing else is done. -/
theorem Moment.Step.edit_withColumn {m : Moment Unit} {g g' : Grid} {e : Edit} {reply : EditReply}
    (here : m.world = .withColumn g) (kept : m.removals 0 = 0) (edits : e.apply g = .ok (reply, g')) :
    ∃ m' : Moment Unit, m.Step m' ∧ m'.world = .withColumn g' ∧ m'.removals 0 = 0 := by
  have ht : m.world.table? 0 = some (.grid (.ofGrid g)) := by rw [here]; rfl
  have edited : (GridTable.ofGrid g).edit m.world.checksOn m.world.thread e =
      .ok (reply, .ofGrid g') := by
    show (e.apply g).bind _ = _
    rw [edits]
    rfl
  refine ⟨_, .tables (.edit ht edited), ?_, ?_⟩
  · rw [here]
    rfl
  · rw [removals_of_past rfl, kept]
    rfl

/-- The column of a table is taken away, and a new one comes in its place. -/
theorem Moment.lived_of_column : ∃ m m' m'' : Moment Unit, m.Lived ∧ m.Goes m' ∧ m'.Goes m'' ∧
    m.world = .withColumn ⟨"", ["h"], []⟩ ∧ m'.world = .withColumn ⟨"", [], []⟩ ∧
    m''.world = .withColumn ⟨"", [""], []⟩ ∧ m''.removals 0 = 0 := by
  obtain ⟨m, lived, here, untouched⟩ := lived_of_part (.grid (.ofGrid ⟨"", ["h"], []⟩))
    Context.spawn_default (.grid (by simp [Grid.Rectangular])) () (.toolkit 0) (.inr rfl)
  obtain ⟨m', shrinks, here', kept'⟩ := Step.edit_withColumn (e := .setColumnCount 0) here (untouched 0).2 rfl
  obtain ⟨m'', grows, here'', kept''⟩ := Step.edit_withColumn (e := .setColumnCount 1) here' kept' rfl
  exact ⟨m, m', m'', lived, shrinks.goes, grows.goes, here, here', here'', kept''⟩

/-- The node of a column that was taken away is there when there is a column again. -/
theorem looking_disturbs_nothing_column :
    ∃ (m m' m'' : Moment Unit) (s : Stage) (x a : Adapter), m.Lived ∧ m.Goes m' ∧ m'.Goes m'' ∧
      s.Stores m.world a ∧ a.identity = .column s.key 0 ∧ s.Set m'' ∧
      m.world.Extends (fun _ _ _ => True) m''.world ∧
      (Adapter.Table.column x 0 m'.world).value? = some none ∧
      (Adapter.Table.column x 0 m''.world).value? = some (some a) := by
  obtain ⟨m, m', m'', lived, shrinks, grows, before, between, after, kept⟩ := Moment.lived_of_column
  have lived'' := (lived.goes shrinks).goes grows
  have stored : (⟨0, Arena.keyAt 0 1, 0, 0, 0, ⟨"", [""], []⟩⟩ : Stage).Stores m.world
      ⟨Arena.keyAt 1 1, .column (Arena.keyAt 0 1) 0, some (Arena.keyAt 0 1), 0, 0⟩ :=
    ⟨rfl, _, by rw [before]; rfl, rfl⟩
  have set : (⟨0, Arena.keyAt 0 1, 0, 0, 0, ⟨"", [""], []⟩⟩ : Stage).Set m'' := by
    refine ⟨⟨_, ⟨Arena.keyAt 0 1, .table (Arena.keyAt 0 1), none, 0, 0⟩, by rw [after]; rfl, rfl, rfl,
      rfl, rfl, rfl⟩, ⟨_, by rw [after]; rfl, rfl⟩, ⟨none, by rw [after]; rfl, nofun⟩,
      ⟨.start .default, by rw [after]; rfl, fun away => absurd (by rw [after]; rfl) away⟩, ?_⟩
    refine (lived''.corresponds (by rw [after]; rfl)).once ?_
    rw [kept]
    decide
  have grown : m.world.Extends (fun _ _ _ => True) m''.world := by
    rw [before, after]
    exact .mutate _ fun t => .single (.mutated trivial)
  have root : (⟨0, Arena.keyAt 0 1, 0, 0, 0, ⟨"", [""], []⟩⟩ : Stage).Finds m''.world
      (.table (Arena.keyAt 0 1)) ⟨Arena.keyAt 0 1, .table (Arena.keyAt 0 1), none, 0, 0⟩ :=
    ⟨rfl, _, by rw [after]; rfl, by decide +kernel⟩
  have back := (looking_disturbs_nothing.returns stored grown lived'' set Nat.one_pos).column root rfl
  have ends : (Adapter.Table.column ⟨Arena.keyAt 0 1, .table (Arena.keyAt 0 1), none, 0, 0⟩ 0
      m''.world).value?.isSome := by
    rw [after]
    decide +kernel
  obtain ⟨_, value⟩ := Option.isSome_iff_exists.1 ends
  obtain ⟨w', run, -, rfl⟩ := back.of_value value
  exact ⟨m, m', m'', _, _, _, lived, shrinks, grows, stored, rfl, set, grown,
    by rw [between]; decide +kernel, value⟩

end TableAccess
