import TableAccess.Proofs.Census
import TableAccess.Proofs.Counting
import TableAccess.Proofs.Galleries
import TableAccess.Proofs.Outlines

/-!
# Acts side by side

Two acts begin side by side, the second with a tree that has some of the nodes of the first one's tree, or
all of them. The second shadows the first if it is over with a value whenever the first is, and then its tree
still has no other nodes. There is always room for it: a tree has a slot for each node it lacks of a tree
that has more. When both begin with the same tree, and find or make the same nodes, they also give these
the same keys.

## The model

* `Tree.Within` — a tree has some of the nodes of another.
* `Gallery.Abreast` — the trees of two acts, the same if `deep` holds.
* `Act.Both`, `Act.Shadows` — what comes of two acts side by side.
* `Act.Alone` — an act that goes on while the other does nothing.
* `Shadows.bind`, `Shadows.each`, … — one rule for each way to put acts together.
* `obtain_shadows` — a node is found or made side by side.
* `Adapter.treeChildren_shadows` — the children of a node are listed side by side.
-/

namespace TableAccess

variable {μ α β γ δ : Type} {tree tree' tree'' tree₀ : Tree} {i : Identity} {a : Adapter} {p : PeerId}
  {x : Gallery} {deep : Prop}

/-! ### Trees with fewer nodes -/

/-- A tree has some of the nodes of another, whatever their keys are, and a bridge holds both or neither. -/
structure Tree.Within (tree tree' : Tree) : Prop where
  /-- What has a node in the one has one in the other. -/
  nodes : ∀ {i : Identity}, (tree.find? i).isSome → (tree'.find? i).isSome
  /-- A bridge holds both or neither. -/
  alive : tree'.alive = tree.alive

namespace Tree

theorem Within.refl (tree : Tree) : tree.Within tree := ⟨id, rfl⟩

theorem Within.trans (h : tree.Within tree') (h' : tree'.Within tree'') : tree.Within tree'' :=
  ⟨fun there => h'.nodes (h.nodes there), h'.alive.trans h.alive⟩

/-- A tree has no more identities than slots. -/
theorem Indexed.identities (h : tree.Indexed) : ∃ nodes : Finset Identity,
    nodes.card ≤ Arena.maxSlots ∧ ∀ i, i ∈ nodes ↔ (tree.find? i).isSome := by
  refine ⟨(tree.nodes.toList.map fun x => x.2.identity).toFinset, ?_, fun i => ?_⟩
  · refine (List.toFinset_card_le _).trans ?_
    rw [List.length_map]
    exact h.arena.length_toList_le
  · rw [List.mem_toFinset, List.mem_map, Option.isSome_iff_exists]
    constructor
    · rintro ⟨⟨k, a⟩, listed, rfl⟩
      exact ⟨a, h.find?_identity (h.arena.mem_toList.1 listed)⟩
    · rintro ⟨a, found⟩
      obtain ⟨stored, identity⟩ := h.find?_eq_some_iff.1 found
      exact ⟨(a.key, a), h.arena.mem_toList.2 stored, identity⟩

/-- A tree has room for a node that it lacks of a tree that has more. -/
theorem Within.room (within : tree₀.Within tree) (indexed₀ : tree₀.Indexed) (indexed : tree.Indexed)
    (lacks : tree₀.find? i = none) (has : (tree.find? i).isSome) : tree₀.nodes.nextKey? ≠ none := by
  obtain ⟨nodes, few, mem⟩ := indexed.identities
  refine indexed₀.nextKey?_ne_none few (fun k a stored => ?_) ((mem i).2 has) lacks
  exact (mem a.identity).2 (within.nodes (by rw [indexed₀.find?_identity stored]; rfl))

/-- A node is added. -/
theorem Indexed.within_add (h : tree.Indexed) (next : tree.nodes.nextKey? = some a.key)
    (new : tree.find? a.identity = none) : tree.Within (tree.add a) := by
  refine ⟨fun {i} there => ?_, rfl⟩
  rw [h.find?_add next new]
  split
  · rfl
  · exact there

/-- What is added has a node in the other tree too. -/
theorem Within.add_left (within : tree₀.Within tree) (h : tree₀.Indexed)
    (next : tree₀.nodes.nextKey? = some a.key) (new : tree₀.find? a.identity = none)
    (has : (tree.find? a.identity).isSome) : (tree₀.add a).Within tree := by
  refine ⟨fun {i} there => ?_, within.alive⟩
  rw [h.find?_add next new] at there
  split at there
  · subst i
    exact has
  · exact within.nodes there

end Tree

/-- A node of one of the tables is added. -/
theorem Gallery.Holds.add (h : x.Holds tree) (next : tree.nodes.nextKey? = some a.key)
    (new : tree.find? a.identity = none) (node : x.Node a) : x.Holds (tree.add a) where
  indexed := h.indexed.add next new
  nodes {k b} stored table := by
    rw [h.indexed.get?_add next] at stored
    split at stored
    · cases stored
      exact node
    · exact h.nodes stored table

/-- The trees of two acts that are side by side. -/
structure Gallery.Abreast (x : Gallery) (deep : Prop) (tree tree₀ : Tree) : Prop where
  /-- The tree of the first one. -/
  holds : x.Holds tree
  /-- The tree of the second one. -/
  holds₀ : x.Holds tree₀
  /-- It has no other nodes than the first. -/
  within : tree₀.Within tree
  /-- Both are the same. -/
  same : deep → tree₀ = tree

namespace Gallery.Abreast

/-- The second tree has room for what has a node in the first. -/
theorem room (h : x.Abreast deep tree tree₀) (lacks : tree₀.find? i = none)
    (has : (tree.find? i).isSome) : ∃ k, tree₀.nodes.nextKey? = some k :=
  Option.ne_none_iff_exists'.1 (h.within.room h.holds₀.indexed h.holds.indexed lacks has)

/-- A node is added to the first tree. -/
theorem add_left (h : x.Abreast deep tree tree₀) (next : tree.nodes.nextKey? = some a.key)
    (new : tree.find? a.identity = none) (node : x.Node a) : x.Abreast False (tree.add a) tree₀ where
  holds := h.holds.add next new node
  holds₀ := h.holds₀
  within := h.within.trans (h.holds.indexed.within_add next new)
  same := False.elim

/-- A node is added to the second tree that the first has. -/
theorem add_right (h : x.Abreast deep tree tree₀) (next : tree₀.nodes.nextKey? = some a.key)
    (new : tree₀.find? a.identity = none) (has : (tree.find? a.identity).isSome) (node : x.Node a) :
    x.Abreast deep tree (tree₀.add a) where
  holds := h.holds
  holds₀ := h.holds₀.add next new node
  within := h.within.add_left h.holds₀.indexed next new has
  same deep := by
    rw [h.same deep] at new
    rw [new] at has
    cases has

end Gallery.Abreast

/-! ### Two acts -/

/-- What comes of two acts that begin side by side: each has a value, or the first one panics because there
is no room. -/
inductive Act.Both (x : Gallery) (deep : Prop) (act : Act μ α) (act₀ : Act μ β) (Q : α → β → Prop)
    (tree tree₀ : Tree) : Prop where
  /-- Each has a value. -/
  | values {a : α} {b : β} {tree' tree₀' : Tree} (runs : act.Runs x tree (.ok a) tree')
      (runs₀ : act₀.Runs x tree₀ (.ok b) tree₀') (abreast : x.Abreast deep tree' tree₀')
      (grows : tree.Within tree') (holds : Q a b) : Both x deep act act₀ Q tree tree₀
  /-- The first one panics. -/
  | panics {panic : Panic} {tree' : Tree} (runs : act.Runs x tree (.error panic) tree')
      (cramped : panic = Room.overflow ∨ panic = treeFull) : Both x deep act act₀ Q tree tree₀

/-- An act is shadowed by a second one, and something holds of their values. -/
structure Act.Shadows (x : Gallery) (deep : Prop) (act : Act μ α) (act₀ : Act μ β)
    (Q : α → β → Prop) : Prop where
  /-- So it is with whatever trees they begin. -/
  both : ∀ {tree tree₀ : Tree}, x.Abreast deep tree tree₀ → act.Both x deep act₀ Q tree tree₀

namespace Act.Shadows

variable {act : Act μ α} {act₀ : Act μ β} {Q Q' : α → β → Prop}

theorem mono (h : act.Shadows x deep act₀ Q) (weaker : ∀ {a b}, Q a b → Q' a b) :
    act.Shadows x deep act₀ Q' := by
  refine ⟨fun abreast => ?_⟩
  cases h.both abreast with
  | values runs runs₀ abreast' grows holds => exact .values runs runs₀ abreast' grows (weaker holds)
  | panics runs cramped => exact .panics runs cramped

theorem pure {a : α} {b : β} (holds : Q a b) :
    (pure a : Act μ α).Shadows x deep (pure b : Act μ β) Q :=
  ⟨fun abreast => .values (.pure a) (.pure b) abreast (.refl _) holds⟩

/-- One act after another. -/
theorem bind {f : α → Act μ γ} {f₀ : β → Act μ δ} {Q' : γ → δ → Prop} (h : act.Shadows x deep act₀ Q)
    (rest : ∀ {a b}, Q a b → (f a).Shadows x deep (f₀ b) Q') :
    (act >>= f).Shadows x deep (act₀ >>= f₀) Q' := by
  refine ⟨fun abreast => ?_⟩
  cases h.both abreast with
  | values runs runs₀ abreast' grows holds =>
    cases (rest holds).both abreast' with
    | values runs' runs₀' abreast'' grows' holds' =>
      exact .values (runs.bind runs') (runs₀.bind runs₀') abreast'' (grows.trans grows') holds'
    | panics runs' cramped => exact .panics (runs.bind runs') cramped
  | panics runs cramped => exact .panics runs.panics cramped

theorem map {f : α → γ} {f₀ : β → δ} {Q' : γ → δ → Prop} (h : act.Shadows x deep act₀ Q)
    (holds : ∀ {a b}, Q a b → Q' (f a) (f₀ b)) : (f <$> act).Shadows x deep (f₀ <$> act₀) Q' := by
  rw [map_eq_pure_bind, map_eq_pure_bind]
  exact h.bind fun value => .pure (holds value)

/-- What is read is the same. -/
theorem constant (h : act.Constant x) : act.Shadows x deep act (· = ·) := by
  obtain ⟨value, runs⟩ := h
  exact ⟨fun abreast => .values (runs _) (runs _) abreast (.refl _) rfl⟩

/-- Acts for the items of a list, one after the other. -/
theorem each {items : List γ} {act : γ → Act μ α} {act₀ : γ → Act μ β}
    (h : ∀ c ∈ items, (act c).Shadows x deep (act₀ c) Q) :
    (Act.each items act).Shadows x deep (Act.each items act₀) (List.Forall₂ Q) := by
  induction items with
  | nil => exact .pure .nil
  | cons c rest ih =>
    rw [each_cons, each_cons]
    refine (h c List.mem_cons_self).bind fun first => ?_
    refine (ih fun c' mem => h c' (List.mem_cons_of_mem c mem)).bind fun others => ?_
    exact .pure (.cons first others)

theorem makeRoom (item : Room.Item) (count : Nat) :
    (Act.makeRoom item count : Act μ Unit).Shadows x deep (Act.makeRoom item count) fun _ _ => True := by
  unfold Act.makeRoom
  split
  · exact .pure trivial
  · exact ⟨fun _ => .panics (.throw _) (.inl rfl)⟩

theorem hasTree (node : x.Node a) :
    (a.hasTree : Act μ Bool).Shadows x deep a.hasTree (· = ·) := by
  exact ⟨fun abreast => .values (.hasTree node) (.hasTree node) abreast (.refl _)
    abreast.within.alive⟩

end Act.Shadows

/-- An act goes on alone, beside one that does nothing. -/
def Act.Alone (x : Gallery) (deep : Prop) (act : Act μ α) (Q : α → Prop) : Prop :=
  act.Shadows x deep (pure () : Act μ Unit) fun a _ => Q a

namespace Act.Alone

variable {act : Act μ α} {Q : α → Prop}

theorem pure {a : α} (holds : Q a) : (pure a : Act μ α).Alone x deep Q := Shadows.pure holds

/-- One act after another. -/
theorem bind {f : α → Act μ β} {Q' : β → Prop} (h : act.Alone x deep Q)
    (rest : ∀ a, Q a → (f a).Alone x deep Q') : (act >>= f).Alone x deep Q' :=
  (Shadows.bind h fun value => rest _ value : (act >>= f).Shadows x deep
    (Pure.pure () >>= fun _ => Pure.pure ()) fun b _ => Q' b)

theorem map {f : α → β} {Q' : β → Prop} (h : act.Alone x deep Q) (holds : ∀ a, Q a → Q' (f a)) :
    (f <$> act).Alone x deep Q' := by
  rw [map_eq_pure_bind]
  exact h.bind fun a value => .pure (holds a value)

/-- It reads. -/
theorem constant (h : act.Constant x) : act.Alone x deep fun _ => True := by
  obtain ⟨value, runs⟩ := h
  exact ⟨fun abreast => .values (runs _) (.pure ()) abreast (.refl _) trivial⟩

/-- Acts for the items of a list, one after the other. -/
theorem each {items : List γ} {act : γ → Act μ α} (h : ∀ c ∈ items, (act c).Alone x deep Q) :
    (Act.each items act).Alone x deep fun as => ∀ a ∈ as, Q a := by
  induction items with
  | nil => exact .pure fun a mem => by cases mem
  | cons c rest ih =>
    rw [each_cons]
    refine (h c List.mem_cons_self).bind fun a first => ?_
    refine (ih fun c' mem => h c' (List.mem_cons_of_mem c mem)).bind fun as others => ?_
    exact .pure (List.forall_mem_cons.2 ⟨first, others⟩)

/-- The other one may have a value. -/
theorem beside (h : act.Alone x deep Q) (b : β) :
    act.Shadows x deep (Pure.pure b : Act μ β) fun a b' => Q a ∧ b' = b := by
  rw [← id_map act, ← map_pure (fun _ => b) ()]
  exact Shadows.map h fun value => ⟨value, rfl⟩

/-- What is shadowed in the same tree goes on alone, as long as the trees may differ. -/
theorem of_shadows {Q' : α → α → Prop} (h : act.Shadows x True act Q') (shallow : ¬deep)
    (holds : ∀ {a a₀}, Q' a a₀ → Q a) : act.Alone x deep Q := by
  refine ⟨fun {tree tree₀} abreast => ?_⟩
  cases h.both ⟨abreast.holds, abreast.holds, .refl tree, fun _ => rfl⟩ with
  | values runs _ abreast' grows value =>
    refine .values runs (.pure ()) ?_ grows (holds value)
    exact ⟨abreast'.holds, abreast.holds₀, abreast.within.trans grows, fun same => absurd same shallow⟩
  | panics runs cramped => exact .panics runs cramped

end Act.Alone

/-! ### Nodes that are found or made -/

/-- The node that has been found in a tree. -/
theorem Act.Runs.obtain_found {parent : Option NodeKey} (found : tree.find? i = some a) :
    (obtain x.tree i parent p : Act μ Adapter).Runs x tree (.ok a) tree := by
  refine .of_done fun {w} ready => ⟨w, ?_, ready⟩
  unfold obtain
  rw [Act.bind_apply, getTree_run ready.planted, Progress.bind, found]
  rfl

/-- The node that is made there. -/
theorem Act.Runs.obtain_made {parent : Option NodeKey} {k : NodeKey} (missing : tree.find? i = none)
    (next : tree.nodes.nextKey? = some k) : (obtain x.tree i parent p : Act μ Adapter).Runs x tree
      (.ok ⟨k, i, parent, p, x.tree⟩) (tree.add ⟨k, i, parent, p, x.tree⟩) := by
  refine .of_done fun {w} ready => ?_
  refine ⟨(w.modifyTree x.tree (·.add ⟨k, i, parent, p, x.tree⟩)).tell (.adapterCreated k.toRaw i), ?_, ?_⟩
  · unfold obtain
    rw [Act.bind_apply, getTree_run ready.planted, Progress.bind, missing]
    simp only [next]
    rfl
  · refine ⟨⟨?_, ready.peers, ready.tables⟩, ready.responds⟩
    show (w.modifyTree x.tree _).trees[x.tree]? = _
    rw [World.getElem?_modifyTree ready.planted, if_pos rfl]

/-- There is no room for it. -/
theorem Act.Runs.obtain_full {parent : Option NodeKey} (missing : tree.find? i = none)
    (full : tree.nodes.nextKey? = none) :
    (obtain x.tree i parent p : Act μ Adapter).Runs x tree (.error treeFull) tree := by
  refine .of_done fun {w} ready => ⟨w, ?_, ready⟩
  unfold obtain
  rw [Act.bind_apply, getTree_run ready.planted, Progress.bind, missing]
  simp only [full]
  rfl

/-- What nodes are that are found or made side by side: they stand for the same, and are the same in the
same tree. -/
structure Gallery.Twins (x : Gallery) (deep : Prop) (i : Identity) (a b : Adapter) : Prop where
  /-- It is a node of one of the tables. -/
  node : x.Node a
  /-- It stands for this. -/
  identity : a.identity = i
  /-- It is the same node. -/
  same : deep → b = a

/-- A row, a column or a cell of one of the tables. -/
structure Gallery.Part (x : Gallery) (i : Identity) : Prop where
  /-- The table is one of them. -/
  table : x.Keys i.tableKey
  /-- It is below the table. -/
  below : 0 < i.depth

/-- A node that is made for it. -/
theorem Gallery.Part.node (part : x.Part i) (mine : x.Peers p) (k : NodeKey) (parent : Option NodeKey) :
    x.Node ⟨k, i, parent, p, x.tree⟩ where
  here := rfl
  table := part.table
  own isTable := by
    have below := part.below
    rw [Identity.eq_of_role_table (i := i) isTable] at below
    exact absurd below (Nat.lt_irrefl 0)
  peer := mine

section Obtain

variable {parent parent₀ : Option NodeKey} (part : x.Part i) (mine : x.Peers p)

include part mine

/-- The first tree has the node: it is found there, and in the second tree it is found or made. -/
theorem Gallery.Abreast.obtain_found (abreast : x.Abreast deep tree tree₀)
    (found : tree.find? i = some a) : (obtain x.tree i parent p : Act μ Adapter).Both x deep
      (obtain x.tree i parent₀ p) (x.Twins deep i) tree tree₀ := by
  obtain ⟨stored, identity⟩ := abreast.holds.indexed.find?_eq_some_iff.1 found
  have node := abreast.holds.nodes stored (identity ▸ part.table)
  have same : deep → tree₀.find? i = some a := fun deep => by rw [abreast.same deep, found]
  cases found₀ : tree₀.find? i with
  | some b =>
    refine .values (.obtain_found found) (.obtain_found found₀) abreast (.refl _)
      ⟨node, identity, fun deep => ?_⟩
    exact Option.some.inj (found₀.symm.trans (same deep))
  | none =>
    have has : (tree.find? i).isSome := by rw [found]; rfl
    obtain ⟨k, next⟩ := abreast.room found₀ has
    refine .values (.obtain_found found) (.obtain_made found₀ next)
      (abreast.add_right next found₀ has (part.node mine _ _)) (.refl _) ⟨node, identity, fun deep => ?_⟩
    cases found₀.symm.trans (same deep)

/-- Neither tree has the node: it is made in both. -/
theorem Gallery.Abreast.obtain_missing (abreast : x.Abreast deep tree tree₀)
    (missing : tree.find? i = none) (same : deep → parent₀ = parent) :
    (obtain x.tree i parent p : Act μ Adapter).Both x deep (obtain x.tree i parent₀ p)
      (x.Twins deep i) tree tree₀ := by
  have missing₀ : tree₀.find? i = none := by
    rw [← Option.not_isSome_iff_eq_none]
    intro has
    have there := abreast.within.nodes has
    rw [missing] at there
    cases there
  cases next : tree.nodes.nextKey? with
  | none => exact .panics (.obtain_full missing next) (.inr rfl)
  | some k =>
    have indexed := abreast.holds.indexed
    have node := part.node mine k parent
    have first := abreast.add_left (a := ⟨k, i, parent, p, x.tree⟩) next missing node
    -- the first tree has the node then, so the second has room for it
    have has : ((tree.add ⟨k, i, parent, p, x.tree⟩).find? i).isSome := by
      rw [indexed.find?_add (a := ⟨k, i, parent, p, x.tree⟩) next missing, if_pos rfl]
      rfl
    obtain ⟨k₀, next₀⟩ := first.room missing₀ has
    have keys : deep → k₀ = k := fun deep => by
      rw [abreast.same deep, next] at next₀
      exact (Option.some.inj next₀).symm
    have both := first.add_right (a := ⟨k₀, i, parent₀, p, x.tree⟩) next₀ missing₀ has
      (part.node mine _ _)
    refine .values (.obtain_made missing next) (.obtain_made missing₀ next₀)
      { both with same := fun deep => ?_ } (indexed.within_add next missing) ⟨node, rfl, fun deep => ?_⟩
    · rw [abreast.same deep, keys deep, same deep]
    · rw [keys deep, same deep]

/-- A node is found or made side by side. -/
theorem obtain_shadows (same : deep → parent₀ = parent) :
    (obtain x.tree i parent p : Act μ Adapter).Shadows x deep (obtain x.tree i parent₀ p)
      (x.Twins deep i) := by
  refine ⟨fun {tree tree₀} abreast => ?_⟩
  cases found : tree.find? i with
  | some a => exact abreast.obtain_found part mine found
  | none => exact abreast.obtain_missing part mine found same

end Obtain

/-- So is the node of a cell, after that of its row. -/
theorem cellNode_shadows {table : NodeKey} (known : x.Keys table) (mine : x.Peers p) (row column : Nat) :
    (cellNode x.tree table p row column : Act μ Adapter).Shadows x deep
      (cellNode x.tree table p row column) (x.Twins deep (.cell table row column)) :=
  (obtain_shadows (i := .row table row) ⟨known, Nat.one_pos⟩ mine fun _ => rfl).bind fun twins =>
    obtain_shadows ⟨known, Nat.two_pos⟩ mine fun same => by rw [twins.same same]

/-! ### Children -/

/-- What the children of a node are that are listed side by side. -/
def Gallery.Children (x : Gallery) (deep : Prop) (a : Adapter) : List Adapter → List Adapter → Prop :=
  List.Forall₂ fun b b₀ => ∃ i, x.Twins deep i b b₀ ∧ i.depth = a.identity.depth + 1

/-- They are the same nodes in the same tree. -/
theorem Gallery.Children.eq {nodes nodes₀ : List Adapter} (h : x.Children deep a nodes nodes₀)
    (same : deep) : nodes₀ = nodes := by
  refine (List.forall₂_eq_eq_eq ▸ List.Forall₂.imp ?_ (List.Forall₂.flip h) :)
  rintro b₀ b ⟨i, twins, -⟩
  exact twins.same same

/-- Each is one further down. -/
theorem Gallery.Children.node {nodes nodes₀ : List Adapter} (h : x.Children deep a nodes nodes₀)
    {b : Adapter} (mem : b ∈ nodes) : x.Node b ∧ b.identity.depth = a.identity.depth + 1 := by
  obtain ⟨b₀, -, i, twins, depth⟩ := forall₂_mem_left h mem
  exact ⟨twins.node, twins.identity ▸ depth⟩

/-- The children of a node in the serialized tree are listed side by side. -/
theorem Adapter.treeChildren_shadows (node : x.Node a) :
    (a.treeChildren : Act μ _).Shadows x deep a.treeChildren (x.Children deep a) := by
  unfold treeChildren children
  have here := node.here
  have known := node.table
  cases isNode : a.identity with
  | table k =>
    have known : x.Keys a.key := by rwa [node.own (by rw [isNode]; rfl)]
    have listed : ∀ {i : Identity}, i.depth = 1 → ∀ {b b₀ : Adapter}, x.Twins deep i b b₀ →
        ∃ j, x.Twins deep j b b₀ ∧ j.depth = a.identity.depth + 1 := fun depth _ _ twins =>
      ⟨_, twins, by rw [depth, isNode]; rfl⟩
    refine (Act.Shadows.constant (shape_constant node)).bind ?_
    rintro shape - rfl
    cases shape with
    | none => exact .pure .nil
    | some shape =>
      refine (Act.Shadows.hasTree node).bind ?_
      rintro has - rfl
      split
      · refine (Act.Shadows.makeRoom _ _).bind fun _ => ?_
        rw [Table.rowNodes, Table.columnNodes, here]
        refine (Act.Shadows.each fun row _ => (obtain_shadows (i := .row a.key row)
          ⟨known, Nat.one_pos⟩ node.peer fun _ => rfl).mono (listed rfl)).bind fun rows => ?_
        refine (Act.Shadows.each fun column _ => (obtain_shadows (i := .column a.key column)
          ⟨known, Nat.one_pos⟩ node.peer fun _ => rfl).mono (listed rfl)).bind fun columns => ?_
        exact .pure (List.rel_append rows columns)
      · exact .pure .nil
  | row k row =>
    refine (Act.Shadows.constant (read_constant node _ (Reading.honest_ofRow row _))).bind ?_
    rintro count - rfl
    refine (Act.Shadows.hasTree node).bind ?_
    rintro has - rfl
    split
    · refine (Act.Shadows.makeRoom _ _).bind fun _ => ?_
      rw [here]
      refine Act.Shadows.each fun column _ => (cellNode_shadows known node.peer row column).mono ?_
      exact fun twins => ⟨_, twins, by rw [isNode]; rfl⟩
    · exact .pure .nil
  | column | cell => exact .pure .nil

end TableAccess
