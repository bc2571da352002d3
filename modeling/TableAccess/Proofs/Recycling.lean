import TableAccess.Proofs.Attaching
import TableAccess.Proofs.Degrading
import TableAccess.Proofs.Navigation
import TableAccess.Proofs.Requests

/-!
# Keys of nodes that are gone

A slot of an arena is used again, its key is not. Until the versions of the slots have come round,
every node that is made in a tree gets a key that no node has had there before, whether that one is
still in the tree or not. So the key of a node that has left its tree leads nowhere for good, and
what a node remembers as the key of its parent leads to its parent or nowhere.

## The model

* `Moment.made` — the nodes that were made in a tree, in order.
* `Moment.Left` — a node has left its tree; `Left.goes` — it does not come back, nor does its key.
* `World.FindsNothing` — nobody finds a node under a key.
* `Moment.Kin` — the nodes that were made know their parents.
* `keys_are_not_recycled` — the main statement.
-/

namespace TableAccess

variable {μ : Type} {m m' : Moment μ} {t : TreeId} {tree tree' : Tree} {a b : Adapter}
  {k : NodeKey} {w : World μ}

/-- The node that was made in a tree. -/
def Deed.made? (t : TreeId) : Deed → Option Adapter
  | .made a => if a.tree = t then some a else none
  | _ => none

namespace Moment

/-! ### The keys that were given -/

/-- The nodes that were made in a tree, in order, whether or not they have left it. -/
def made (m : Moment μ) (t : TreeId) : List Adapter := m.past.filterMap (Deed.made? t)

theorem mem_made : a ∈ m.made t ↔ .made a ∈ m.past ∧ a.tree = t := by
  unfold made
  rw [List.mem_filterMap]
  constructor
  · rintro ⟨d, mem, same⟩
    cases d with
    | made b =>
      simp only [Deed.made?, Option.ite_none_right_eq_some, Option.some.injEq] at same
      obtain ⟨here, rfl⟩ := same
      exact ⟨mem, here⟩
    | _ => cases same
  · rintro ⟨mem, rfl⟩
    exact ⟨_, mem, by simp [Deed.made?]⟩

/-- With a deed no node is made in a tree, or one. -/
theorem Step.made_eq (h : m.Step m') (t : TreeId) :
    m'.made t = m.made t ∨ ∃ a, m'.made t = m.made t ++ [a] ∧ a.tree = t ∧ m.Born m' a := by
  obtain ⟨deeds, past, none | ⟨a, rfl, born⟩⟩ := h.makes
  · refine .inl ?_
    have nothing : deeds.filterMap (Deed.made? t) = [] := by
      rw [List.filterMap_eq_nil_iff]
      intro d mem
      cases d with
      | made a => exact absurd mem (none a)
      | _ => rfl
    rw [made, past, List.filterMap_append, nothing, List.append_nil, made]
  · by_cases here : a.tree = t
    · refine .inr ⟨a, ?_, here, born⟩
      rw [made, past, List.filterMap_append, made]
      simp [Deed.made?, here]
    · refine .inl ?_
      rw [made, past, List.filterMap_append, made]
      simp [Deed.made?, here]

/-- No two nodes that were made in a tree were given the same key. -/
theorem Lived.keys_nodup (h : m.Lived) (few : m.removals t < 2 ^ 31) :
    ((m.made t).map Adapter.key).Nodup := by
  revert few
  refine (h.keeps (P := fun m => m.Lived ∧
    (m.removals t < 2 ^ 31 → ((m.made t).map Adapter.key).Nodup)) (fun memory => ?_) ?_).2
  · exact ⟨⟨memory, .refl _⟩, fun _ => List.nodup_nil⟩
  · rintro m m' step ⟨lived, apart⟩
    refine ⟨lived.goes step.goes, fun few => ?_⟩
    have few := Nat.lt_of_le_of_lt (removals_le step t) few
    rcases step.made_eq t with same | ⟨b, more, here, born⟩
    · rw [same]
      exact apart few
    · rw [more, List.map_append, List.nodup_append]
      refine ⟨apart few, List.nodup_singleton _, ?_⟩
      intro k old k' new same
      obtain ⟨a, mem, rfl⟩ := List.mem_map.1 old
      obtain rfl := List.mem_singleton.1 new
      obtain ⟨known, there⟩ := mem_made.1 mem
      exact lived.keyed.key_ne lived (there ▸ few) known born (there.trans here.symm) same

/-! ### Nodes that have left their tree -/

/-- A node was made and is not in its tree any more. -/
structure Left (m : Moment μ) (a : Adapter) : Prop where
  known : .made a ∈ m.past
  gone : ∀ {tree}, m.world.trees[a.tree]? = some tree → tree.get? a.key = none

/-- With a deed it does not come back, and no other node gets its key. -/
theorem Left.step (left : m.Left a) (h : m.Lived) (step : m.Step m')
    (few : m'.removals a.tree < 2 ^ 31) : m'.Left a := by
  refine ⟨step.past.subset left.known, fun {tree'} ht' => ?_⟩
  have few := Nat.lt_of_le_of_lt (removals_le step a.tree) few
  have added : ∀ {tree b}, m.world.trees[a.tree]? = some tree →
      tree.nodes.nextKey? = some b.key → (tree.add b).get? a.key = none := by
    intro tree b ht next
    have indexed := (h.coherent ht).indexed
    have other : a.key ≠ b.key := fun same =>
      indexed.arena.not_knows_nextKey next (same ▸ h.keyed.knows ht few left.known)
    rw [indexed.get?_add next, if_neg other]
    exact left.gone ht
  cases step.change ht' with
  | planted c new e =>
    rw [e]
    simp [Tree.get?, Tree.empty, Arena.get?, Arena.empty]
  | kept ht nodes =>
    rw [Tree.get?, nodes]
    exact left.gone ht
  | attached ht next identity parent here e => exact e ▸ added ht next
  | made ht next free known there same shared parent_eq isParent here e => exact e ▸ added ht next
  | detached ht table e =>
    rw [e, (h.coherent ht).indexed.get?_removeTable, left.gone ht]
    rfl

/-- It never does. -/
theorem Left.goes (left : m.Left a) (h : m.Lived) (later : m.Goes m')
    (few : m'.removals a.tree < 2 ^ 31) : m'.Left a := by
  revert few
  refine (later.keeps (P := fun m' => m'.Lived ∧ (m'.removals a.tree < 2 ^ 31 → m'.Left a))
    ⟨h, fun _ => left⟩ ?_).2
  rintro m m' step ⟨lived, before⟩
  refine ⟨lived.goes step.goes, fun few => ?_⟩
  exact (before (Nat.lt_of_le_of_lt (removals_le step a.tree) few)).step lived step few

end Moment

/-- Nobody finds a node under a key of a tree, or under the id that tells the key outside. -/
structure World.FindsNothing (w : World μ) (t : TreeId) (k : NodeKey) : Prop where
  /-- There is none in the tree. -/
  get : ∀ {tree}, w.trees[t]? = some tree → tree.get? k = none
  /-- The id names none. -/
  node : ∀ {b bridge}, w.bridges[b]? = some bridge → bridge.tree = t →
    Bridge.node? b k.toRaw w = .done (.ok none) w
  /-- A query for an attribute of it is answered with no value, and told. -/
  query : ∀ {b bridge} attr, w.bridges[b]? = some bridge → bridge.tree = t →
    ∃ log, Bridge.query b k.toRaw attr w = .done (.ok .none) { w with log := log }
  /-- It cannot be written out. -/
  nodeUpdate : ∀ {b bridge}, w.bridges[b]? = some bridge → bridge.tree = t →
    Bridge.nodeUpdate b k w = .done (.ok none) w
  /-- Neither can what was below it. -/
  treeUpdate : ∀ {b bridge}, w.bridges[b]? = some bridge → bridge.tree = t →
    ∃ log, Bridge.treeUpdate b k w = .done (.ok none) { w with log := log }

namespace World

variable {b : BridgeId} {bridge : Bridge}

theorem node?_run (hb : w.bridges[b]? = some bridge) (ht : w.trees[bridge.tree]? = some tree)
    (id : NodeId) : Bridge.node? b id w = .done (.ok (tree.get? (.ofRaw id))) w := by
  unfold Bridge.node?
  simp only [Act.bind_apply, Bridge.getBridge_run hb, getTree_run ht, Progress.bind, Act.pure_apply]

theorem query_of_absent {id : NodeId} (hb : w.bridges[b]? = some bridge)
    (ht : w.trees[bridge.tree]? = some tree) (absent : tree.get? (.ofRaw id) = none)
    (attr : Attribute) :
    Bridge.query b id attr w =
      .done (.ok .none) ((w.tell (.span .query)).tell (.unknownNode id attr)) := by
  have run := node?_run (w := w.tell (.span .query)) hb ht id
  unfold Bridge.query
  rw [Act.tell_bind, Act.bind_apply, run, absent]
  rfl

theorem nodeUpdate_of_absent (hb : w.bridges[b]? = some bridge)
    (ht : w.trees[bridge.tree]? = some tree) (gone : tree.get? k = none) :
    Bridge.nodeUpdate b k w = .done (.ok none) w := by
  unfold Bridge.nodeUpdate buildNodeUpdate
  simp only [Act.bind_apply, Bridge.getBridge_run hb, getTree_run ht, Progress.bind, gone]
  rfl

theorem treeUpdate_of_absent (hb : w.bridges[b]? = some bridge)
    (ht : w.trees[bridge.tree]? = some tree) (gone : tree.get? k = none) :
    Bridge.treeUpdate b k w =
      .done (.ok none) ((w.tell (.span .treeUpdate)).tell (.rootUnavailable k.toRaw)) := by
  have run : visit bridge.tree Adapter.levels k (w.tell (.span .treeUpdate)) =
      .done (.ok []) (w.tell (.span .treeUpdate)) := by
    unfold Adapter.levels visit
    simp only [Act.bind_apply, getTree_run (w := w.tell (.span .treeUpdate)) ht, Progress.bind, gone]
    rfl
  unfold Bridge.treeUpdate buildTreeUpdate
  rw [Act.bind_apply, Bridge.getBridge_run hb]
  simp only [Progress.bind]
  rw [Act.tell_bind, Act.bind_apply, run]
  rfl

/-- Whatever is looked for goes through the tree. -/
theorem findsNothing (ht : w.trees[t]? = some tree) (gone : tree.get? k = none) :
    w.FindsNothing t k := by
  have absent : tree.get? (.ofRaw k.toRaw) = none := by rw [NodeKey.ofRaw_toRaw, gone]
  refine ⟨fun {tree'} ht' => ?_, ?_, ?_, ?_, ?_⟩
  · rw [ht] at ht'
    cases ht'
    exact gone
  · rintro b bridge hb rfl
    rw [node?_run hb ht, absent]
  · rintro b bridge attr hb rfl
    exact ⟨_, query_of_absent hb ht absent attr⟩
  · rintro b bridge hb rfl
    exact nodeUpdate_of_absent hb ht gone
  · rintro b bridge hb rfl
    exact ⟨_, treeUpdate_of_absent hb ht gone⟩

end World

namespace Moment

/-! ### Parents -/

/-- Every node that was made and has a parent has the key of one that was made before in its tree and
stands for what its parent is. -/
def Kin (m : Moment μ) : Prop :=
  ∀ {a : Adapter} {k : NodeKey}, .made a ∈ m.past → a.parent = some k →
    ∃ b, .made b ∈ m.past ∧ b.tree = a.tree ∧ b.key = k ∧ a.identity.parent? = some b.identity

/-- The parent of a node that is made was made before. -/
theorem Lived.kin_of_isParent (h : m.Lived) (ht : m.world.trees[a.tree]? = some tree)
    (isParent : tree.IsParent a.identity k) {through : Adapter} (known : .made through ∈ m.past)
    (there : through.tree = a.tree) (same : a.identity.tableKey = through.tableKey) :
    ∃ b, .made b ∈ m.past ∧ b.tree = a.tree ∧ b.key = k ∧ a.identity.parent? = some b.identity := by
  obtain ⟨b, made, isTable, key, here, -⟩ := h.keyed.family known
  have key : b.key = a.identity.tableKey := key.trans same.symm
  revert key
  generalize a.identity = i at isParent
  intro key
  cases isParent with
  | row | column => exact ⟨b, made, here.trans there, key, by rw [isTable, key]; rfl⟩
  | @cell table row b' found =>
    obtain ⟨stored, identity⟩ := (h.coherent ht).indexed.find?_eq_some_iff.1 found
    refine ⟨b', h.keyed.stored ht stored, (h.coherent ht).here stored, rfl, ?_⟩
    rw [identity]
    rfl

theorem Kin.step (kin : m.Kin) (h : m.Lived) (step : m.Step m') : m'.Kin := by
  intro a k ha parent
  have old : .made a ∈ m.past → ∃ b, .made b ∈ m'.past ∧ b.tree = a.tree ∧ b.key = k ∧
      a.identity.parent? = some b.identity := fun ha => by
    obtain ⟨b, known, rest⟩ := kin ha parent
    exact ⟨b, step.past.subset known, rest⟩
  have planted := (h.goes step.goes).keyed.planted ha
  cases step.change (List.getElem?_eq_getElem planted) with
  | planted c new e past => exact old (past ▸ ha)
  | kept ht nodes index context made => exact old (made a rfl ha)
  | @attached tree b ht next identity none here e past =>
    rw [past, List.mem_append, List.mem_singleton] at ha
    rcases ha with before | new
    · exact old before
    · cases Deed.made.inj new
      rw [none] at parent
      cases parent
  | @made tree b through p ht next free known there same shared parent_eq isParent here e past =>
    rw [past, List.mem_append, List.mem_singleton] at ha
    rcases ha with before | new
    · exact old before
    · cases Deed.made.inj new
      rw [parent_eq] at parent
      cases parent
      obtain ⟨b, made, rest⟩ := h.kin_of_isParent ht isParent known there same
      exact ⟨b, step.past.subset made, rest⟩
  | detached ht table e past =>
    rw [past] at ha
    exact old (by simpa using ha)

theorem Lived.kin (h : m.Lived) : m.Kin := by
  refine (h.keeps (P := fun m => m.Lived ∧ m.Kin) (fun memory => ?_) fun step ih => ?_).2
  · refine ⟨⟨memory, .refl _⟩, fun ha => ?_⟩
    simp [first] at ha
  · exact ⟨ih.1.goes step.goes, Kin.step ih.2 ih.1 step⟩

/-- Whoever asks a node that was made for its parent is given the node of what the parent is, in the
same tree and with the same peer, or nothing. -/
theorem Lived.parentOf_kin (h : m.Lived) (ha : .made a ∈ m.past) (few : m.removals a.tree < 2 ^ 31) :
    ∃ parent, a.parentOf m.world = .done (.ok parent) m.world ∧ ∀ b, parent = some b →
      .made b ∈ m.past ∧ a.identity.parent? = some b.identity ∧ b.tableKey = a.tableKey ∧
        b.tree = a.tree ∧ b.peer = a.peer := by
  obtain ⟨parent, run, found⟩ := a.parentOf_run m.world
  refine ⟨parent, run, fun b hb => ?_⟩
  obtain ⟨k, tree, parent, ht, stored⟩ := found b hb
  obtain ⟨b', made, here, key, identity⟩ := h.kin ha parent
  have known := h.keyed.stored ht stored
  have there := (h.coherent ht).here stored
  have own := (h.coherent ht).indexed.key stored
  have one : b = b' :=
    h.keyed.once (there ▸ few) known made (there.trans here.symm) (own.trans key.symm)
  subst one
  have same : b.tableKey = a.tableKey := by
    have family : ∀ {i j : Identity}, i.parent? = some j → j.tableKey = i.tableKey := by
      intro i j parent
      cases i <;> cases parent <;> rfl
    exact family identity
  have once : m.GivenOnce a.tree := fun x y hx hy hxt hyt => h.keyed.once (hxt ▸ few) hx hy (hxt.trans hyt.symm)
  exact ⟨known, identity, same, there, h.keyed.same_peer once known ha there rfl same⟩

/-! ### A slot that is used again -/

/-- Where the first table is alone in its tree and is taken out, the table that is attached next gets
its slot. -/
theorem Lived.first_slot_again (h : m.Lived)
    (ht : m.world.trees[0]? = some ((Tree.empty 0).add .firstTable)) (held : 0 < m.world.tables.length) :
    ∃ m₁ m₂ b tree₁ tree₂, m.Step m₁ ∧ m₁.Step m₂ ∧ m₁.world.bridges = m.world.bridges ∧
      m₁.world.trees[0]? = some tree₁ ∧ tree₁.get? Adapter.firstTable.key = none ∧
      m₂.world.trees[0]? = some tree₂ ∧ tree₂.get? b.key = some b ∧
      b.key.index = Adapter.firstTable.key.index ∧
      m₁.removals 0 = m.removals 0 + 1 ∧ m₂.removals 0 = m.removals 0 + 1 := by
  obtain ⟨tree, taken⟩ : ∃ tree,
      tree = ((Tree.empty 0).add .firstTable).removeTable Adapter.firstTable.key := ⟨_, rfl⟩
  obtain ⟨next, bare, gone⟩ : tree.nodes.nextKey? = some (Arena.keyAt 0 3) ∧ tree.tables = [] ∧
      tree.get? Adapter.firstTable.key = none := by
    subst taken
    decide +kernel
  obtain ⟨m₁, detaches, ht₁, tables, bridges, past⟩ : ∃ m₁, m.Step m₁ ∧
      m₁.world.trees[0]? = some tree ∧ m₁.world.tables = m.world.tables ∧
      m₁.world.bridges = m.world.bridges ∧ m₁.past = m.past ++ [.detached 0 1] :=
    ⟨_, .trees (.detach ht Adapter.firstTable.key), by simp [ht, taken], rfl, rfl, rfl⟩
  obtain ⟨m₂, b, attaches, ht₂, key, past₂⟩ : ∃ m₂ b, m₁.Step m₂ ∧
      m₂.world.trees[0]? = some (tree.add b) ∧ b.key = Arena.keyAt 0 3 ∧
      m₂.past = m₁.past ++ [.made b] :=
    ⟨_, _, .trees (.attach (t := 0) (k := Arena.keyAt 0 3) ht₁ (tables ▸ held) (by simp [bare]) next),
      by simp [ht₁], rfl, rfl⟩
  have lost : m₁.removals 0 = m.removals 0 + 1 := removals_of_detached past
  have stored : (tree.add b).get? b.key = some b := by
    rw [((h.goes detaches.goes).coherent ht₁).indexed.get?_add (key ▸ next), if_pos rfl]
  refine ⟨m₁, m₂, b, tree, _, detaches, attaches, bridges, ht₁, gone, ht₂, stored, ?_, lost, ?_⟩
  · rw [key]
    rfl
  · rw [removals_of_past past₂, lost]
    rfl

end Moment

/-- No key of a node leads to another node, however often its slot is used again. In a run in which
fewer than `2 ^ 31` nodes were taken out of a tree: the nodes that were made in it, in whatever way,
were all given different keys; from when a node has left the tree nobody finds a node under its key,
or under the id that tells the key outside; and a node that was made, whether or not it is still in
the tree, is answered its parent, with its table and its peer, or nothing when it asks for it. -/
theorem keys_are_not_recycled (h : m.Lived) (later : m.Goes m') (few : m'.removals t < 2 ^ 31) :
    ((m'.made t).map Adapter.key).Nodup ∧
    (∀ {a tree}, .made a ∈ m.past → a.tree = t → m.world.trees[t]? = some tree →
      tree.get? a.key = none → m'.world.FindsNothing t a.key) ∧
    ∀ {a}, .made a ∈ m'.past → a.tree = t →
      ∃ parent, a.parentOf m'.world = .done (.ok parent) m'.world ∧ ∀ b, parent = some b →
        a.identity.parent? = some b.identity ∧ b.tableKey = a.tableKey ∧ b.peer = a.peer := by
  have lived := h.goes later
  refine ⟨lived.keys_nodup few, ?_, ?_⟩
  · rintro a tree known rfl ht gone
    have left : m.Left a := ⟨known, fun {tree'} ht' => by
      rw [ht] at ht'
      cases ht'
      exact gone⟩
    have left' := left.goes h later few
    have there := List.getElem?_eq_getElem (lived.keyed.planted left'.known)
    exact World.findsNothing there (left'.gone there)
  · rintro a known rfl
    obtain ⟨parent, run, kin⟩ := lived.parentOf_kin known few
    refine ⟨parent, run, fun b hb => ?_⟩
    obtain ⟨-, identity, table, -, peer⟩ := kin b hb
    exact ⟨identity, table, peer⟩

/-- A table is attached where one was taken out: it gets the same slot, and the old key leads
nowhere. -/
theorem keys_are_not_recycled_slot : ∃ (m m' : Moment Unit) (a b : Adapter) (tree : Tree),
    m.Lived ∧ m.Goes m' ∧ .made a ∈ m.past ∧ m'.world.trees[0]? = some tree ∧
      tree.get? b.key = some b ∧ b.key.index = a.key.index ∧ m'.world.FindsNothing 0 a.key := by
  obtain ⟨m, lived, e, untouched⟩ := Moment.lived_of_cell () (.client 0)
  have ht : m.world.trees[0]? = some ((Tree.empty 0).add .firstTable) := by rw [e]; rfl
  have held : 0 < m.world.tables.length := by rw [e]; exact Nat.one_pos
  obtain ⟨m₁, m₂, b, tree₁, tree₂, detaches, attaches, -, ht₁, gone, ht₂, stored, slot, -, removals⟩ :=
    lived.first_slot_again ht held
  have few : m₂.removals 0 < 2 ^ 31 := by
    rw [removals, (untouched 0).2]
    decide
  have known : .made .firstTable ∈ m₁.past :=
    detaches.goes.remembers (lived.keyed.stored (k := Adapter.firstTable.key) ht rfl)
  have lived₁ := lived.goes detaches.goes
  exact ⟨m₁, m₂, .firstTable, b, tree₂, lived₁, attaches.goes, known, ht₂, stored, slot,
    (keys_are_not_recycled lived₁ attaches.goes few).2.1 known rfl ht₁ gone⟩

end TableAccess
