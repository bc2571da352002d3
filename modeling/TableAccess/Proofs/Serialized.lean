import TableAccess.Proofs.Calm
import TableAccess.Proofs.Gathering
import TableAccess.Proofs.Updates

/-!
# Tables written out in full

The full update of a table that stays as it is has every part of the table once, in order, each as the
contents say, whichever nodes there were before and whatever the others do to the rest of the tree. To
write it out a second time changes nothing.

## The model

* `Stage.WritesAll` — some nodes written out, each with its id.
* `Grid.subtree`, `Grid.update` — the update of a part and of all contents, the ids being given.
* `Brings.visit`, `Brings.subtree`, `Brings.buildTreeUpdate` — what a visit and an update come to.
* `unchanging_table_is_serialized` — the main statement.
-/

namespace TableAccess

variable {μ α β : Type} {R : World μ → World μ → Prop} {w w' : World μ} {s : Stage}
  {E : Tree → Tree → Prop} {i : Identity} {a : Adapter}

/-! ### Visits -/

/-- Some nodes written out, each with its id, in the order of what they stand for. -/
def Stage.WritesAll (s : Stage) (w : World μ) : List (Nat × Identity) → List (NodeId × TreeNode) → Prop :=
  List.Forall₂ fun x n => (∃ b, s.Finds w x.2 b ∧ n.1 = b.key.toRaw) ∧ s.Writes w x.2 n.2

theorem Stage.WritesAll.since {parts : List Identity} {xs : List (Nat × Identity)}
    {ns : List (NodeId × TreeNode)} (h : s.WritesAll w xs ns) (since : s.Since E parts w w') :
    s.WritesAll w' xs ns :=
  List.Forall₂.imp (fun _ _ ⟨⟨b, found, id⟩, writes⟩ =>
    ⟨⟨b, since.stays found, id⟩, writes.since since⟩) h

/-- Results for the items of a list that are lists themselves. -/
theorem forall₂_flatMap {γ : Type} {P : β → γ → Prop} {f : α → List β} {items : List α}
    {results : List (List γ)} (h : List.Forall₂ (fun b ns => List.Forall₂ P (f b) ns) items results) :
    List.Forall₂ P (items.flatMap f) results.flatten := by
  rw [List.flatMap_def]
  exact List.rel_flatten (List.forall₂_map_left_iff.2 h)

namespace Act.Brings

open Stage

variable (bears : s.Bears E R)

include bears

/-- A visit writes out a node that is there and all below it. -/
theorem visit (depth level : Nat) (ready : s.Ready w) (found : s.Finds w i a)
    (there : s.grid.Includes i) :
    (TableAccess.visit s.tree depth a.key).Brings s E R (s.grid.sown depth i)
      (fun ns w' => s.WritesAll w' (s.grid.below depth level i) ns) w := by
  -- by the levels that are left: a node that was written out names its children, and these are there
  induction depth generalizing level i a w with
  | zero => exact pure bears ready .nil
  | succ depth ih =>
    obtain ⟨tree, ht, -, stored, -⟩ := found.stored ready.toStands
    unfold TableAccess.visit
    refine getTree ht ?_
    simp only [stored]
    refine (build bears ready found there).bind bears ?_
    rintro _ w₁ ready₁ since₁ ⟨n, rfl, writes⟩
    have children : n.children = (s.grid.branches i).map (s.nodeId w₁) := by
      rw [writes.written, Grid.written_children]
    simp only [children, each_map]
    refine Brings.bind_nil bears (each bears
      (fun j ns w' => s.WritesAll w' (s.grid.below depth (level + 1) j) ns) ready₁
      (fun since written => written.since since) ?_) ?_
    · intro j w₂ parts hj ready₂ since₂
      obtain ⟨b, found'⟩ := writes.there j hj
      rw [found'.nodeId, NodeKey.ofRaw_toRaw]
      exact ih (level + 1) ready₂ (since₂.stays found') (Grid.includes_of_branch hj).1
    · intro results w₂ ready₂ since₂ below
      refine pure bears ready₂ (.cons ⟨⟨a, since₂.stays (since₁.stays found), rfl⟩, ?_⟩ ?_)
      · exact writes.since since₂
      · exact forall₂_flatMap below

end Act.Brings

/-! ### Updates -/

/-- The update of a part and all below it, the ids of the nodes being given. -/
def Grid.subtree (g : Grid) (id : Identity → NodeId) (i : Identity) : Update :=
  ⟨(g.under i).map fun j => (id j, g.written id j), some (id i), id i⟩

/-- The update of a table, the ids of its nodes being given. -/
def Grid.update (g : Grid) (id : Identity → NodeId) (k : NodeKey) : Update :=
  ⟨(g.serial k).map fun i => (id i, g.written id i), some (id (.table k)), id (.table k)⟩

/-- Only the ids of the parts matter. -/
theorem Grid.subtree_congr {g : Grid} {id id' : Identity → NodeId}
    (same : ∀ j ∈ g.under i, id j = id' j) : g.subtree id i = g.subtree id' i := by
  have nodes : ((g.under i).map fun j => (id j, g.written id j)) =
      (g.under i).map fun j => (id' j, g.written id' j) :=
    List.map_congr_left fun j hj => Prod.ext (same j hj)
      (Grid.written_congr (List.map_congr_left fun p hp => same p (Grid.under_closed hj hp)))
  rw [subtree, subtree, nodes, same i (g.mem_under_self i)]

/-- All parts of the table are there, and an update says of each what the contents say. -/
structure Stage.Serializes (s : Stage) (w : World μ) (u : Update) : Prop where
  /-- The list of the table's children found room. -/
  fits : s.grid.Fits
  /-- All parts are there. -/
  whole : s.Whole w
  /-- The contents say so. -/
  update : u = s.grid.update (s.nodeId w) s.key

/-- The update of a row is what that of the table has of it. -/
theorem Grid.block_update {g : Grid} {id : Identity → NodeId} {k : NodeKey} {row : Nat}
    (there : row < g.rows.length) :
    g.block row (g.update id k).nodes = (g.subtree id (.row k row)).nodes := by
  rw [update, subtree, block_map, block_serial there]

/-- What is asked for while a part that is there is written out is there. -/
theorem Stage.Whole.sown (whole : s.Whole w) (depth : Nat) (there : s.grid.Includes i)
    (own : i.tableKey = s.key) {j : Identity} (hj : j ∈ s.grid.sown depth i) :
    ∃ b, s.Finds w j b := by
  obtain ⟨there', same⟩ := there.sown hj
  exact whole j (same.trans own) there'

/-- A node all of whose children were written out keeps them all. -/
theorem keepWritten_eq {written : Std.TreeSet NodeId} {n : NodeId × TreeNode}
    (all : ∀ c ∈ n.2.children, c ∈ written) : (keepWritten written n : Act μ _) = pure n := by
  unfold keepWritten
  have kept : n.2.children.filter (written.contains ·) = n.2.children :=
    List.filter_eq_self.2 fun c hc => Std.TreeSet.contains_iff_mem.2 (all c hc)
  simp only [kept, if_true]

/-- Nodes all of whose children were written out are left as they are. -/
theorem dropDangling_eq {nodes : List (NodeId × TreeNode)}
    (all : ∀ n ∈ nodes, ∀ c ∈ n.2.children, c ∈ nodes.map Prod.fst) :
    (dropDangling nodes : Act μ _) = pure nodes := by
  have kept : ∀ n ∈ nodes, ∀ c ∈ n.2.children,
      c ∈ (Std.TreeSet.ofList (nodes.map Prod.fst) : Std.TreeSet NodeId) := by
    intro n hn c hc
    rw [Std.TreeSet.mem_ofList, List.contains_iff_mem]
    exact all n hn c hc
  unfold dropDangling
  revert kept
  generalize (Std.TreeSet.ofList (nodes.map Prod.fst) : Std.TreeSet NodeId) = written
  clear all
  induction nodes with
  | nil => exact fun _ => rfl
  | cons n rest ih =>
    intro kept
    rw [Act.each_cons, keepWritten_eq (kept n List.mem_cons_self),
      ih fun n' mem => kept n' (List.mem_cons_of_mem n mem), pure_bind, pure_bind]

namespace Stage.WritesAll

variable {xs : List (Nat × Identity)} {ns : List (NodeId × TreeNode)}

/-- What a visit has written out. -/
theorem eq (h : s.WritesAll w xs ns) :
    ns = (xs.map Prod.snd).map fun i => (s.nodeId w i, s.grid.written (s.nodeId w) i) := by
  rw [List.map_map]
  refine List.forall₂_eq_eq_eq ▸ ?_
  refine List.forall₂_map_right_iff.2 (List.Forall₂.flip (h.imp ?_))
  rintro x n ⟨⟨b, found, id⟩, writes⟩
  exact Prod.ext (id.trans found.nodeId.symm) writes.written

/-- All of it is there. -/
theorem there (h : s.WritesAll w xs ns) (hi : i ∈ xs.map Prod.snd) : ∃ b, s.Finds w i b := by
  obtain ⟨x, hx, rfl⟩ := List.mem_map.1 hi
  obtain ⟨n, -, ⟨b, found, -⟩, -⟩ := forall₂_mem_left h hx
  exact ⟨b, found⟩

end Stage.WritesAll

/-- The update of a part that is there, and of all below it. -/
theorem Act.Brings.subtree (bears : s.Bears E R) (ready : s.Ready w) (found : s.Finds w i a)
    (there : s.grid.Includes i) : (TableAccess.buildTreeUpdate s.tree a.key).Brings s E R
      (s.grid.sown Adapter.levels i) (fun result w' => result = some (s.grid.subtree (s.nodeId w') i) ∧
        (∀ j ∈ s.grid.under i, ∃ b, s.Finds w' j b) ∧ (i.role = .table → s.grid.Fits)) w := by
  have told := ready.tell (.span .treeUpdate)
  have found' : s.Finds (w.tell (.span .treeUpdate)) i a := found.congr rfl
  refine tell bears ready ?_
  refine (visit bears Adapter.levels 0 told found' there).bind_nil bears ?_
  intro ns w₁ ready₁ since written
  have all := written.eq
  have parts : ∀ j ∈ s.grid.under i, ∃ b, s.Finds w₁ j b := fun j hj =>
    written.there (by rwa [Grid.below_eq])
  have fits : i.role = .table → s.grid.Fits := by
    cases written with
    | cons first => exact first.2.fits
  rw [Grid.below_eq] at all
  have some : ns.isEmpty = false := by
    rw [all]
    cases i <;> rfl
  simp only [some, Bool.false_eq_true, if_false]
  rw [dropDangling_eq ?_, pure_bind]
  · have id : s.nodeId w₁ i = a.key.toRaw := (since.stays found').nodeId
    refine tell bears ready₁ (pure bears (ready₁.tell _) ⟨?_, fun j hj => ?_, fits⟩)
    · rw [all, ← id]
      rfl
    · exact (parts j hj).imp fun _ here => here.congr rfl
  · -- the children of a node that was written out are branches of what is below `i`
    rw [all, List.map_map]
    rintro n hn c hc
    obtain ⟨p, hp, rfl⟩ := List.mem_map.1 hn
    rw [Grid.written_children] at hc
    obtain ⟨j, hj, rfl⟩ := List.mem_map.1 hc
    exact List.mem_map.2 ⟨j, Grid.under_closed hp hj, rfl⟩

/-- The update of the whole table. -/
theorem Act.Brings.buildTreeUpdate (bears : s.Bears E R) (ready : s.Ready w)
    (root : s.Finds w (.table s.key) a) : (TableAccess.buildTreeUpdate s.tree s.key).Brings s E R
      (s.grid.sown Adapter.levels (.table s.key))
      (fun result w' => ∃ u, result = some u ∧ s.Serializes w' u) w := by
  have all := subtree bears ready root trivial
  rw [root.key ready.toStands] at all
  refine all.mono ?_
  rintro result w' - - ⟨rfl, parts, fits⟩
  exact ⟨_, rfl, fits rfl, fun i own there => parts i (Grid.mem_serial.2 ⟨own, there⟩), rfl⟩

/-- A table all of whose parts have their nodes is written out, and no node is made. -/
theorem Stage.Whole.serialized (bears : s.Bears E R) (ready : s.Ready w) (whole : s.Whole w)
    (fits : s.grid.Fits) (root : s.Finds w (.table s.key) a) :
    (buildTreeUpdate s.tree s.key).Brings s E R []
      (fun result w' => ∃ u, result = some u ∧ s.Serializes w' u) w := by
  refine (Act.Brings.buildTreeUpdate bears ready root).of_found bears fits fun i mem => ?_
  exact whole.sown _ (i := .table s.key) trivial rfl mem

/-- **A table whose contents stay is written out in full.** Whichever of its nodes were there before,
and whatever the others do meanwhile to the rest of the tree, the update has all parts of the table, each
once and in order, as the contents say; the nodes that were there keep their ids. Written out again, when
nothing has changed, it comes to the same, and the tree stays as it is. -/
theorem unchanging_table_is_serialized {m : Moment μ} (h : m.Lived) (set : s.Set m) :
    (buildTreeUpdate s.tree s.key).Brings s s.Keeps (s.Calm s.Keeps)
      (s.grid.sown Adapter.levels (.table s.key))
      (fun result w' => ∃ u, result = some u ∧ s.Serializes w' u ∧
        u.root = some s.key.toRaw ∧ u.focus = s.key.toRaw ∧
        u.nodes.length = 1 + s.grid.rows.length + s.grid.rows.length * s.grid.headers.length +
          s.grid.headers.length ∧
        (∀ i b, s.Finds m.world i b → s.nodeId w' i = b.key.toRaw) ∧
        ∀ later : World μ, s.Ready later → later.trees[s.tree]? = w'.trees[s.tree]? →
          (buildTreeUpdate s.tree s.key later).ComesTo (s.Calm Eq) fun again w'' =>
            again = .ok (some u) ∧ w''.trees[s.tree]? = w'.trees[s.tree]?) m.world := by
  obtain ⟨a, root⟩ := (set.ready h).root
  have key := root.key (set.ready h).toStands
  refine (Act.Brings.buildTreeUpdate (Stage.Keeps.bears s) (set.ready h) root).mono ?_
  rintro result w' ready since ⟨u, rfl, serializes⟩
  have rootId : s.nodeId w' (.table s.key) = s.key.toRaw := by
    rw [(since.stays root).nodeId, key]
  refine ⟨u, rfl, serializes, ?_, ?_, ?_, fun i b found => (since.stays found).nodeId, ?_⟩
  · rw [serializes.update, Grid.update, rootId]
  · rw [serializes.update, Grid.update, rootId]
  · rw [serializes.update, Grid.update, List.length_map, Grid.length_serial]
  · intro later ready' same
    -- nothing but the tree decides the ids, and all nodes are there already
    have whole : s.Whole later := fun i own there =>
      (serializes.whole i own there).imp fun _ found => found.congr same
    refine (whole.serialized (Stage.Calm.bears_eq s) ready' serializes.fits
      ((since.stays root).congr same)).comes.mono ?_
    intro again w'' outcome
    obtain ⟨_, rfl, -, since', u', rfl, serializes'⟩ := outcome.of_nil
    have still := since'.still.trans same
    refine ⟨?_, still⟩
    rw [serializes'.update, serializes.update, Stage.nodeId_congr still]

/-- So is a table with one cell: the table, its row, the cell and the column. -/
theorem unchanging_table_is_serialized_cell :
    ∃ (m : Moment Unit) (s : Stage) (u : Update) (w' : World Unit), m.Lived ∧ s.Set m ∧
      buildTreeUpdate s.tree s.key m.world = .done (.ok (some u)) w' ∧ s.Serializes w' u ∧
      u.nodes.map Prod.fst = [0x100000001, 0x100000002, 0x100000004, 0x100000003] := by
  obtain ⟨m, lived, e, set⟩ := Stage.set_attached (g := ⟨"", ["h"], [["x"]]⟩)
    (by simp [Grid.Rectangular]) () (.toolkit 0)
  have ids : ((buildTreeUpdate 0 (Arena.keyAt 0 1) m.world).value?.map fun result =>
      result.map fun u => u.nodes.map Prod.fst) =
        some (some [0x100000001, 0x100000002, 0x100000004, 0x100000003]) := by
    rw [e]
    decide +kernel
  obtain ⟨result, value, ids⟩ := Option.map_eq_some_iff.1 ids
  obtain ⟨w', run, -, u, rfl, serializes, -⟩ :=
    (unchanging_table_is_serialized lived set).of_value value
  exact ⟨m, _, u, w', lived, set, run, serializes, Option.some.inj ids⟩

end TableAccess
