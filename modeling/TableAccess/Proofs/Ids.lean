import TableAccess.Proofs.Recycling

/-!
# Ids from outside

Whoever is outside asks about nodes by number, and may ask about any. A number is read as a key, and
reading it makes the version odd, as the version of every key is. So there are two numbers that read
as the key of a node: the one that the tree has told, and the one with the version before it, which no
tree has ever told as an id. Any other number names no node of the tree, and is answered as unknown.

## The model

* `Bridge.Known`, `Bridge.Unknown` — what asking about an id comes to that names a node, or none.
* `Moment.Names` — which numbers name nodes of a tree.
* `ids_resolve_to_stored_nodes` — the main statement.
-/

namespace TableAccess

variable {μ : Type} {m : Moment μ} {w : World μ} {t : TreeId} {b : BridgeId} {bridge : Bridge}
  {tree : Tree} {a : Adapter} {id : NodeId}

/-- A bridge takes an id for that of no node. -/
structure Bridge.Unknown (b : BridgeId) (id : NodeId) (w : World μ) : Prop where
  /-- It finds none. -/
  node : Bridge.node? b id w = .done (.ok none) w
  /-- No attribute has a value, and the id is told to be unknown. -/
  query : ∀ attr, Bridge.query b id attr w =
    .done (.ok .none) ((w.tell (.span .query)).tell (.unknownNode id attr))
  /-- An action is ignored as one of an unknown node. -/
  action : ∀ action, Bridge.ignoreAction b id action w =
    .done (.ok ()) (w.tell (.actionIgnored id action false))
  /-- There is nothing to write out for what the id reads as. -/
  nodeUpdate : Bridge.nodeUpdate b (.ofRaw id) w = .done (.ok none) w
  /-- Neither is there below it. -/
  treeUpdate : Bridge.treeUpdate b (.ofRaw id) w = .done (.ok none)
    ((w.tell (.span .treeUpdate)).tell (.rootUnavailable (NodeKey.ofRaw id).toRaw))

/-- A bridge takes an id for that of a node. -/
structure Bridge.Known (b : BridgeId) (id : NodeId) (a : Adapter) (w : World μ) : Prop where
  /-- It finds the node. -/
  node : Bridge.node? b id w = .done (.ok (some a)) w
  /-- The node is asked for the attribute, and the answer told as one to the id. -/
  query : ∀ attr, Bridge.query b id attr w =
    (a.answer attr (w.tell (.span .query))).bind fun value => (do
      Act.tell (.queryAnswered id a.role attr value)
      pure value)
  /-- An action is ignored as one of a known node. -/
  action : ∀ action, Bridge.ignoreAction b id action w =
    .done (.ok ()) (w.tell (.actionIgnored id action true))
  /-- What the id reads as is the key of the node. -/
  key : NodeKey.ofRaw id = a.key

namespace World

theorem ignoreAction_run (hb : w.bridges[b]? = some bridge) (ht : w.trees[bridge.tree]? = some tree)
    (id : NodeId) (action : Action) :
    Bridge.ignoreAction b id action w =
      .done (.ok ()) (w.tell (.actionIgnored id action (tree.get? (.ofRaw id)).isSome)) := by
  unfold Bridge.ignoreAction
  rw [Act.bind_apply, node?_run hb ht]
  rfl

theorem unknown_of_absent (hb : w.bridges[b]? = some bridge) (ht : w.trees[bridge.tree]? = some tree)
    (absent : tree.get? (.ofRaw id) = none) : Bridge.Unknown b id w where
  node := by rw [node?_run hb ht, absent]
  query := query_of_absent hb ht absent
  action action := by rw [ignoreAction_run hb ht, absent, Option.isSome_none]
  nodeUpdate := nodeUpdate_of_absent hb ht absent
  treeUpdate := treeUpdate_of_absent hb ht absent

theorem known_of_found (hb : w.bridges[b]? = some bridge) (ht : w.trees[bridge.tree]? = some tree)
    (sound : tree.Indexed) (found : tree.get? (.ofRaw id) = some a) : Bridge.Known b id a w where
  node := by rw [node?_run hb ht, found]
  query := Bridge.query_eq hb ht found
  action action := by rw [ignoreAction_run hb ht, found, Option.isSome_some]
  key := (sound.key found).symm

end World

/-- A number names a node of a tree if the tree told it as the id of the node, or if it is the number
with an even version that reads as the same key. -/
theorem Tree.Indexed.get?_ofRaw_iff (sound : tree.Indexed) :
    tree.get? (.ofRaw id) = some a ↔
      tree.get? a.key = some a ∧ (id = a.key.toRaw ∨ id = a.key.toEven) := by
  rw [← NodeKey.ofRaw_eq_iff]
  constructor
  · intro found
    have key := sound.key found
    exact ⟨key ▸ found, key.symm⟩
  · rintro ⟨stored, reads⟩
    rw [reads, stored]

/-- Which of the numbers of 64 bits name nodes of a tree, in the tree and to every bridge over it. -/
structure Moment.Names (m : Moment μ) (t : TreeId) (tree : Tree) : Prop where
  /-- The id that the tree told, and the number with an even version that reads as the same key. -/
  names : ∀ {id a}, tree.get? (.ofRaw id) = some a ↔
    tree.get? a.key = some a ∧ (id = a.key.toRaw ∨ id = a.key.toEven)
  /-- No node is told as a number with an even version. -/
  untold : ∀ k k' : NodeKey, k.toEven ≠ k'.toRaw
  /-- What is named was made in the tree. -/
  made : ∀ {id a}, tree.get? (.ofRaw id) = some a → a ∈ m.made t
  /-- A bridge takes the number for the node. -/
  known : ∀ {id a b bridge}, tree.get? (.ofRaw id) = some a → m.world.bridges[b]? = some bridge →
    bridge.tree = t → Bridge.Known b id a m.world
  /-- It takes a number for that of no node if the number is neither of the two for any node that was
  made and is still in the tree. -/
  unknown : ∀ {id b bridge},
    (∀ a ∈ m.made t, tree.get? a.key = some a → id ≠ a.key.toRaw ∧ id ≠ a.key.toEven) →
    m.world.bridges[b]? = some bridge → bridge.tree = t → Bridge.Unknown b id m.world

/-- The ids that resolve, among all numbers of 64 bits and in every tree. A number names a node
exactly if the node is in the tree and the number is the id of the node, or the one number with an
even version that reads as the same key; no key is told as the latter. What is found was made in the
tree, and every bridge over the tree takes the number for the node. Any number that is neither of the
two for a node that is in the tree, in particular any that is neither for a node that was ever made
there, names no node to any bridge over the tree: asking about it comes to nothing, and is told. -/
theorem ids_resolve_to_stored_nodes (h : m.Lived) (ht : m.world.trees[t]? = some tree) :
    m.Names t tree := by
  have coherent := h.coherent ht
  have sound := coherent.indexed
  have made : ∀ {k a}, tree.get? k = some a → a ∈ m.made t := fun stored =>
    Moment.mem_made.2 ⟨h.keyed.stored ht stored, coherent.here stored⟩
  refine ⟨sound.get?_ofRaw_iff, NodeKey.toEven_ne_toRaw, made, ?_, ?_⟩
  · rintro id a b bridge found hb rfl
    exact World.known_of_found hb ht sound found
  · rintro id b bridge unlike hb rfl
    have absent : tree.get? (.ofRaw id) = none := by
      cases found : tree.get? (.ofRaw id) with
      | none => rfl
      | some a =>
        obtain ⟨stored, named⟩ := sound.get?_ofRaw_iff.1 found
        obtain ⟨other, otherEven⟩ := unlike a (made stored) stored
        exact absurd named (not_or.2 ⟨other, otherEven⟩)
    exact World.unknown_of_absent hb ht absent

/-- The id of the only table names it, and the id that the next node would get names nothing. -/
theorem ids_resolve_to_stored_nodes_table : ∃ m : Moment Unit, m.Lived ∧
    Bridge.Known 0 Adapter.firstTable.key.toRaw .firstTable m.world ∧
    Bridge.Unknown 0 (Arena.keyAt 1 1).toRaw m.world := by
  obtain ⟨m, lived, e, -⟩ := Moment.lived_of_cell () (.client 0)
  obtain ⟨tree, ht, found, only⟩ : ∃ tree, m.world.trees[0]? = some tree ∧
      tree.get? (.ofRaw Adapter.firstTable.key.toRaw) = some .firstTable ∧
      tree.get? (.ofRaw (Arena.keyAt 1 1).toRaw) = none :=
    ⟨_, by rw [e]; rfl, by decide +kernel, by decide +kernel⟩
  have hb : m.world.bridges[0]? = some ⟨0, none⟩ := by rw [e]; rfl
  have ids := ids_resolve_to_stored_nodes lived ht
  refine ⟨m, lived, ids.known found hb rfl, ids.unknown (fun a _ stored => ?_) hb rfl⟩
  rw [← not_or]
  intro named
  rw [ids.names.2 ⟨stored, named⟩] at only
  cases only

/-- The number below the id of a table, with the version before it, was never told as an id, and names
the table all the same. -/
theorem id_never_told_names_the_table : ∃ (m : Moment Unit) (tree : Tree) (a : Adapter) (id : NodeId),
    m.Lived ∧ m.world.trees[0]? = some tree ∧ (∀ k, id ≠ NodeKey.toRaw k) ∧
      tree.get? (.ofRaw id) = some a ∧ id ≠ a.key.toRaw ∧ Bridge.Known 0 id a m.world ∧
      ∃ w, Bridge.query 0 id .role m.world = .done (.ok (.role .table)) w := by
  obtain ⟨m, lived, e, -⟩ := Moment.lived_of_cell () (.client 0)
  obtain ⟨tree, ht, found⟩ : ∃ tree, m.world.trees[0]? = some tree ∧
      tree.get? (.ofRaw Adapter.firstTable.key.toEven) = some .firstTable :=
    ⟨_, by rw [e]; rfl, by decide +kernel⟩
  have hb : m.world.bridges[0]? = some ⟨0, none⟩ := by rw [e]; rfl
  have known := World.known_of_found hb ht (lived.coherent ht).indexed found
  refine ⟨m, tree, _, _, lived, ht, fun k => NodeKey.toEven_ne_toRaw _ k, found,
    NodeKey.toEven_ne_toRaw _ _, known, ?_⟩
  rw [known.query]
  exact ⟨_, rfl⟩

end TableAccess
