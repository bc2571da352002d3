import TableAccess.Proofs.Attaching
import TableAccess.Proofs.Latches
import TableAccess.Proofs.Sizes

/-!
# Attaching a table again

A table may have had many nodes in a tree: it was taken out and attached again, or it was found gone
and nobody has pruned the tree yet. But as long as a node stands for it, no other one does, since a
table is attached only where nothing stands for it, and a latch is never taken back. So whoever
attaches the table again gets that node.

## The model

* `Tree.Represents` — a node of a tree stands for a table.
* `Step.represents` — who stands for a table after a deed stood for it before, or was attached with
  this deed, when nobody did.
* `Tree.Gains` — a tree has one more node.
* `Moment.Spares` — deeds that neither take a table out nor latch its peer.
* `attaching_is_idempotent` — the main statement.
-/

namespace TableAccess

variable {μ : Type} {m m' : Moment μ} {w : World μ} {t : TreeId} {tree tree' : Tree}
  {table : TableId} {a b : Adapter} {k : NodeKey}

/-! ### Nodes that stand for a table -/

/-- A node stands for a table: it is the node of a table, it is in the tree, and its peer refers to
this table and is not latched. -/
structure Tree.Represents (tree : Tree) (w : World μ) (table : TableId) (a : Adapter) : Prop where
  /-- It is in the tree. -/
  stored : tree.get? a.key = some a
  /-- It is the node of a table. -/
  isTable : a.role = .table
  /-- Its peer refers to the table, which is not known to be gone. -/
  live : ∃ c, w.Unlatched a.peer table c

theorem standsFor_iff : standsFor w table a = true ↔ ∃ c, w.Unlatched a.peer table c := by
  unfold standsFor World.Unlatched
  cases w.peers[a.peer]? with
  | none => simp
  | some peer =>
    obtain ⟨table', c, invalidated⟩ := peer
    cases invalidated <;> simp

namespace Tree.Indexed

theorem mem_tables (h : tree.Indexed) :
    a ∈ tree.tables ↔ tree.get? a.key = some a ∧ a.role = .table := by
  refine ⟨fun mem => ⟨h.get?_of_mem_tables mem, ?_⟩, fun ⟨stored, isTable⟩ => ?_⟩
  · exact of_decide_eq_true (List.mem_filter.1 mem).2
  · have listed := h.arena.mem_toList.2 stored
    exact List.mem_filter.2 ⟨List.mem_map.2 ⟨_, listed, rfl⟩, decide_eq_true isTable⟩

theorem represents_iff (h : tree.Indexed) :
    tree.Represents w table a ↔ a ∈ tree.tables ∧ standsFor w table a = true := by
  rw [h.mem_tables, standsFor_iff]
  exact ⟨fun ⟨stored, isTable, live⟩ => ⟨⟨stored, isTable⟩, live⟩,
    fun ⟨⟨stored, isTable⟩, live⟩ => ⟨stored, isTable, live⟩⟩

/-- The search for a table that is to be attached fails where nothing stands for it. -/
theorem find?_tables_eq_none (h : tree.Indexed) :
    tree.tables.find? (standsFor w table) = none ↔ ∀ a, ¬tree.Represents w table a := by
  simp only [List.find?_eq_none, h.represents_iff, not_and]

end Tree.Indexed

namespace Moment

/-! ### What deeds make of them -/

/-- The node of a table is made where nothing stands for the table, with a peer for it. -/
theorem Step.attaches (lived : m.Lived) (step : m.Step m') (past : m'.past = m.past ++ [.made a])
    (isTable : a.role = .table) : ∃ tree table, m.world.trees[a.tree]? = some tree ∧
      (∀ b, ¬tree.Represents m.world table b) ∧ m'.world.Unlatched a.peer table tree.context := by
  have alone : ∀ {deeds : List Deed}, m.past ++ deeds = m.past ++ [.made a] → deeds = [.made a] :=
    List.append_cancel_left
  cases step with
  | aside => cases alone ((List.append_nil _).trans past)
  | contexts h =>
    have := contextStep_tree? h (alone past ▸ List.mem_singleton_self _)
    cases this
  | tables h =>
    have := tableStep_tree? h (alone past ▸ List.mem_singleton_self _)
    cases this
  | trees h =>
    have made := alone past
    cases h with
    | @attach t tree table k ht there free next =>
      obtain rfl := Deed.made.inj (List.singleton_inj.1 made)
      refine ⟨tree, table, ht, (lived.coherent ht).indexed.find?_tables_eq_none.1 free, ?_⟩
      show (m.world.peers ++ [_])[m.world.peers.length]? = _
      simp
    | @make t tree i k parent through ht free next known here same isParent =>
      obtain rfl := Deed.made.inj (List.singleton_inj.1 made)
      exact absurd (Identity.eq_of_role_table isTable) isParent.ne_table
    | _ => cases made

/-- A peer of a node that is not latched after a deed was not latched before. -/
theorem Step.unlatched (lived : m.Lived) (step : m.Step m') {c : ContextId}
    (ht : m.world.trees[a.tree]? = some tree) (made : .made a ∈ m.past)
    (after : m'.world.Unlatched a.peer table c) : m.world.Unlatched a.peer table c := by
  obtain ⟨peer, hp, -⟩ := lived.referred.context made ht
  obtain ⟨invalidated, hp', cause⟩ := step.keeps_peer hp
  have same := Peer.mk.inj (Option.some.inj (hp'.symm.trans after))
  obtain ⟨rfl, rfl, rfl⟩ := same
  have valid : peer.invalidated = false := by simpa using cause
  exact hp.trans (by rw [← valid])

/-- Who stands for a table after a deed stood for it before, or was attached with this deed, when
nobody stood for it. -/
theorem Step.represents (lived : m.Lived) (step : m.Step m') (ht' : m'.world.trees[t]? = some tree')
    (h : tree'.Represents m'.world table a) : ∃ tree, m.world.trees[t]? = some tree ∧
      (tree.Represents m.world table a ∨
        (∀ b, ¬tree.Represents m.world table b) ∧ m'.past = m.past ++ [.made a]) := by
  obtain ⟨c, live⟩ := h.live
  have before : ∀ {tree}, m.world.trees[t]? = some tree → tree.get? a.key = some a →
      tree.Represents m.world table a := by
    intro tree ht stored
    obtain rfl := (lived.coherent ht).here stored
    exact ⟨stored, h.isTable, c, step.unlatched lived ht (lived.keyed.stored ht stored) live⟩
  cases step.change ht' with
  | planted context new e =>
    have stored := h.stored
    rw [e] at stored
    simp [Tree.get?, Tree.empty, Arena.get?, Arena.empty] at stored
  | @kept tree ht nodes =>
    have stored := h.stored
    rw [Tree.get?, nodes] at stored
    exact ⟨tree, ht, .inl (before ht stored)⟩
  | @attached tree b ht next identity parent here e past =>
    have stored := h.stored
    rw [e, (lived.coherent ht).indexed.get?_add next] at stored
    split at stored
    · obtain rfl := Option.some.inj stored
      obtain ⟨tree₀, table₀, ht₀, nobody, live₀⟩ := step.attaches lived past h.isTable
      rw [here, ht] at ht₀
      cases ht₀
      have same := Peer.mk.inj (Option.some.inj (live₀.symm.trans live))
      exact ⟨tree, ht, .inr ⟨same.1 ▸ nobody, past⟩⟩
    · exact ⟨tree, ht, .inl (before ht stored)⟩
  | @made tree b through parent ht next free known there same shared parent_eq isParent here e past =>
    have stored := h.stored
    rw [e, (lived.coherent ht).indexed.get?_add next] at stored
    split at stored
    · obtain rfl := Option.some.inj stored
      exact absurd (Identity.eq_of_role_table h.isTable) isParent.ne_table
    · exact ⟨tree, ht, .inl (before ht stored)⟩
  | @detached tree ht other e =>
    have stored := h.stored
    rw [e] at stored
    exact ⟨tree, ht, .inl (before ht ((lived.coherent ht).indexed.of_removeTable stored).1)⟩

/-- At most one node of a tree stands for a table. -/
theorem Lived.represents_unique (h : m.Lived) (ht : m.world.trees[t]? = some tree)
    (ha : tree.Represents m.world table a) (hb : tree.Represents m.world table b) : a = b := by
  refine (h.keeps (P := fun m => m.Lived ∧ ∀ {t tree table a b}, m.world.trees[t]? = some tree →
    tree.Represents m.world table a → tree.Represents m.world table b → a = b)
    (fun memory => ⟨⟨memory, .refl _⟩, fun ht => ?_⟩) fun {m m'} step ih => ?_).2 ht ha hb
  · simp [first, World.empty] at ht
  · obtain ⟨lived, unique⟩ := ih
    refine ⟨lived.goes step.goes, fun ht ha hb => ?_⟩
    obtain ⟨tree, ht₀, oldA | ⟨nobody, pastA⟩⟩ := step.represents lived ht ha <;>
      obtain ⟨tree', ht₀', oldB | ⟨nobody', pastB⟩⟩ := step.represents lived ht hb <;>
      cases ht₀.symm.trans ht₀'
    · exact unique ht₀ oldA oldB
    · exact absurd oldA (nobody' _)
    · exact absurd oldB (nobody _)
    · simpa using pastA.symm.trans pastB

/-! ### Deeds that spare a table -/

/-- With this deed a table is taken out of a tree. -/
def Detaches (t : TreeId) (table : NodeKey) (m m' : Moment μ) : Prop :=
  ∃ tree, m.world.trees[t]? = some tree ∧ m'.world.trees[t]? = some (tree.removeTable table) ∧
    m'.past = m.past ++ [.detached t (tree.keysOf table).length]

/-- With this deed a peer is latched. -/
def Latches (p : PeerId) (m m' : Moment μ) : Prop := ¬m.world.Latched p ∧ m'.world.Latched p

/-- Any number of deeds, none of which takes the table of a node out or latches its peer. -/
def Spares (t : TreeId) (a : Adapter) : Moment μ → Moment μ → Prop :=
  Relation.ReflTransGen fun m m' => m.Step m' ∧ ¬Detaches t a.key m m' ∧ ¬Latches a.peer m m'

theorem Spares.goes (h : Spares t a m m') : m.Goes m' :=
  h.lift id fun _ _ step => step.1

/-- A node of a table stays in its tree unless the table is taken out. -/
theorem Step.keeps_table (lived : m.Lived) (step : m.Step m') (ht : m.world.trees[t]? = some tree)
    (ht' : m'.world.trees[t]? = some tree') (spared : ¬Detaches t a.key m m')
    (stored : tree.get? a.key = some a) (isTable : a.role = .table) :
    tree'.get? a.key = some a := by
  have indexed := (lived.coherent ht).indexed
  cases step.change ht' with
  | planted context new => cases new.symm.trans ht
  | kept same nodes =>
    cases same.symm.trans ht
    rw [Tree.get?, nodes]
    exact stored
  | attached same next identity parent here e | made same next free known there _ _ _ _ here e =>
    cases same.symm.trans ht
    rw [e]
    exact indexed.get?_add_of_some next stored
  | detached same other e past =>
    cases same.symm.trans ht
    have own : a.identity.tableKey = a.key := by
      rcases (lived.coherent ht).parent stored with ⟨-, identity⟩ | ⟨p, -, isParent⟩
      · rw [identity]
        rfl
      · exact absurd (Identity.eq_of_role_table isTable) isParent.ne_table
    have apart : a.key ≠ other := by
      rintro rfl
      exact spared ⟨tree, ht, e ▸ ht', past⟩
    rw [e, indexed.get?_removeTable, stored, Option.filter_some, own]
    exact if_pos (by simpa using apart)

/-- Nobody else stands for the table meanwhile. -/
theorem Spares.represents (h : Spares t a m m') (lived : m.Lived)
    (ht : m.world.trees[t]? = some tree) (ha : tree.Represents m.world table a) :
    ∃ tree', m'.world.trees[t]? = some tree' ∧ tree'.Represents m'.world table a := by
  induction h with
  | refl => exact ⟨tree, ht, ha⟩
  | @tail m₁ m₂ before last ih =>
    obtain ⟨tree₁, ht₁, stored, isTable, c, live⟩ := ih
    obtain ⟨step, spared, unlatched⟩ := last
    have lt := Nat.lt_of_lt_of_le (List.getElem?_eq_some_iff.1 ht₁).1 step.trees_length
    have ht₂ := List.getElem?_eq_getElem lt
    have lived₁ := lived.goes (Spares.goes before)
    obtain ⟨invalidated, hp, -⟩ := step.keeps_peer live
    refine ⟨_, ht₂, step.keeps_table lived₁ ht₁ ht₂ spared stored isTable, isTable, c, ?_⟩
    cases invalidated with
    | false => exact hp
    | true =>
      exact absurd ⟨World.not_latched_iff.2 ⟨table, c, live⟩, World.latched_of_invalidated hp⟩ unlatched

end Moment

/-! ### Attaching -/

/-- A tree has one more node. -/
structure Tree.Gains (tree tree' : Tree) (a : Adapter) : Prop where
  /-- Nothing was under its key. -/
  free : tree.get? a.key = none
  /-- It is there now, and all else is as it was, -/
  get? : ∀ k, tree'.get? k = if k = a.key then some a else tree.get? k
  /-- also in the index. -/
  index : ∀ i, tree'.index[i]? = if a.identity = i then some a.key else tree.index[i]?
  /-- It is one node more. -/
  size : tree'.size = tree.size + 1
  /-- The tree is on the same context. -/
  context : tree'.context = tree.context
  /-- A bridge holds it if one did. -/
  alive : tree'.alive = tree.alive

theorem Tree.Indexed.gains (h : tree.Indexed) (next : tree.nodes.nextKey? = some a.key) :
    tree.Gains (tree.add a) a where
  free := h.arena.get?_nextKey next
  get? := h.get?_add next
  index := index_add
  size := h.size_add next
  context := rfl
  alive := rfl

/-- A table has got a node in a tree, with a peer of its own. -/
structure World.GetsTable (w w' : World μ) (t : TreeId) (tree : Tree) (table : TableId)
    (a : Adapter) : Prop where
  /-- The node stands for itself, -/
  identity : a.identity = .table a.key
  /-- has no parent -/
  parent : a.parent = none
  /-- and knows its tree. -/
  here : a.tree = t
  /-- Its peer is a new one. -/
  peer : a.peer = w.peers.length
  /-- It refers to the table, on the context of the tree. -/
  peers : w'.peers = w.peers ++ [⟨table, tree.context, false⟩]
  /-- The node is the only one that is new in the tree, -/
  gains : ∃ tree', w'.trees = w.trees.set t tree' ∧ tree.Gains tree' a
  /-- and all else is as it was. -/
  rest : ∃ log, w' = { w with peers := w'.peers, trees := w'.trees, log := log }

/-- What attaching a table comes to. -/
theorem attachTable_eq (ht : w.trees[t]? = some tree) (table : TableId) :
    attachTable t table w = match tree.tables.find? (standsFor w table), tree.nodes.nextKey? with
      | some a, _ => .done (.ok a) w
      | none, none => .done (.error treeFull) w
      | none, some k => .done (.ok ⟨k, .table k, none, w.peers.length, t⟩)
          (World.tell { w with
            peers := w.peers ++ [⟨table, tree.context, false⟩]
            trees := w.trees.set t (tree.add ⟨k, .table k, none, w.peers.length, t⟩) }
            (.tableAttached k.toRaw)) := by
  unfold attachTable
  rw [Act.bind_apply, getTree_run ht]
  simp only [Act.bind_apply, Act.get_apply, Progress.bind]
  cases tree.tables.find? (standsFor w table) with
  | some a => rfl
  | none =>
    cases tree.nodes.nextKey? with
    | none => rfl
    | some k =>
      have planted : ({ w with peers := w.peers ++ [⟨table, tree.context, false⟩] } : World μ).trees[t]? =
        some tree := ht
      exact congrArg (fun w' => Progress.done _ (World.tell w' _)) (World.modifyTree_eq planted _)

/-- Who attaches a table where nothing stands for it gets a node for it. -/
theorem attachTable_gets (ht : w.trees[t]? = some tree) (indexed : tree.Indexed)
    (nobody : ∀ a, ¬tree.Represents w table a) (next : tree.nodes.nextKey? = some k) :
    ∃ a w', attachTable t table w = .done (.ok a) w' ∧ a.key = k ∧
      w.GetsTable w' t tree table a := by
  have run := attachTable_eq ht table
  rw [indexed.find?_tables_eq_none.2 nobody, next] at run
  exact ⟨_, _, run, rfl, rfl, rfl, rfl, rfl, rfl, ⟨_, rfl, indexed.gains next⟩, _, rfl⟩

/-- An act that attaches a table to a tree, directly or through a bridge of the tree. -/
inductive World.Attaching (w : World μ) (t : TreeId) (table : TableId) : Act μ Adapter → Prop where
  /-- To the tree. -/
  | tree : Attaching w t table (attachTable t table)
  /-- Through a bridge. -/
  | bridge {b : BridgeId} {bridge : Bridge} (hb : w.bridges[b]? = some bridge)
      (here : bridge.tree = t) : Attaching w t table (Bridge.attach b table)

/-- A bridge attaches a table as its tree does; it may have got a root. -/
theorem World.Attaching.run {act : Act μ Adapter} {result : Except Panic Adapter} {w' : World μ}
    (h : w.Attaching t table act) (run : attachTable t table w = .done result w') :
    ∃ w'', act w = .done result w'' ∧ w''.trees = w'.trees ∧ w''.peers = w'.peers := by
  cases h with
  | tree => exact ⟨w', run, rfl, rfl⟩
  | @bridge b bridge hb here =>
    obtain ⟨result', w₁, run', attached⟩ := attachTable_run t table w
    obtain ⟨rfl, rfl⟩ := Progress.done.inj (run.symm.trans run')
    unfold Bridge.attach
    rw [Act.bind_apply, Bridge.getBridge_run hb]
    simp only [Act.bind_apply, Progress.bind, here, run]
    cases result with
    | error p => exact ⟨_, rfl, rfl, rfl⟩
    | ok a =>
      obtain ⟨tree, ht⟩ := attached.planted
      simp only [Progress.bind, Act.bind_apply, Bridge.root?_run (attached.bridges ▸ hb) (here ▸ ht)]
      cases (bridge.root.filter fun k => (tree.get? k).isSome).isNone <;> exact ⟨_, rfl, rfl, rfl⟩

/-- It is made of deeds. -/
theorem World.Attaching.meets {act : Act μ Adapter} (h : m.world.Attaching t table act)
    (lived : m.Lived) (there : table < m.world.tables.length) :
    act.Meets m fun m' a => .made a ∈ m'.past := by
  cases h with
  | tree => exact (attachTable_meets lived there).mono fun _ _ _ _ found => found.1
  | bridge => exact Bridge.attach_meets lived there

/-- What attaching a table to a tree comes to, at a moment. -/
structure Moment.AttachesOnce (m : Moment μ) (t : TreeId) (tree : Tree) (table : TableId) :
    Prop where
  /-- No two nodes stand for the table. -/
  alone : ∀ {a b : Adapter}, tree.Represents m.world table a → tree.Represents m.world table b →
    a = b
  /-- If one does, who attaches the table gets that, and nothing changes. -/
  found : ∀ {a : Adapter}, tree.Represents m.world table a →
    attachTable t table m.world = .done (.ok a) m.world
  /-- If none does, there is one node more, with a peer that no node has had, -/
  made : (∀ a, ¬tree.Represents m.world table a) → ∀ {k : NodeKey}, tree.nodes.nextKey? = some k →
    ∃ a w', attachTable t table m.world = .done (.ok a) w' ∧ a.key = k ∧
      m.world.GetsTable w' t tree table a ∧ ∀ b, .made b ∈ m.past → b.peer ≠ a.peer
  /-- unless the tree takes no more nodes; then nothing changes. -/
  full : (∀ a, ¬tree.Represents m.world table a) → tree.nodes.nextKey? = none →
    attachTable t table m.world = .done (.error treeFull) m.world
  /-- Who attaches it through a bridge of the tree gets the same, and the tree comes to the same. -/
  bridges : ∀ {act : Act μ Adapter}, m.world.Attaching t table act →
    ∀ {result : Except Panic Adapter} {w' : World μ}, attachTable t table m.world = .done result w' →
      ∃ w'', act m.world = .done result w'' ∧ w''.trees = w'.trees ∧ w''.peers = w'.peers
  /-- Who attaches it again, after any deeds that neither take it out nor latch its peer, gets the
  same node. -/
  again : ∀ {act : Act μ Adapter} {a : Adapter} {w₁ : World μ}, m.world.Attaching t table act →
    act m.world = .done (.ok a) w₁ → ∃ m₁ : Moment μ, m.Goes m₁ ∧ m₁.world = w₁ ∧
      ∀ {m₂ : Moment μ} {act' : Act μ Adapter}, Moment.Spares t a m₁ m₂ →
        m₂.world.Attaching t table act' → ∃ w₂, act' m₂.world = .done (.ok a) w₂ ∧
          w₂.trees = m₂.world.trees ∧ w₂.peers = m₂.world.peers

/-- A node that stands for a table is found. -/
theorem Moment.Lived.attachTable_found (h : m.Lived) (ht : m.world.trees[t]? = some tree)
    (ha : tree.Represents m.world table a) :
    attachTable t table m.world = .done (.ok a) m.world := by
  have indexed := (h.coherent ht).indexed
  rw [attachTable_eq ht]
  cases found : tree.tables.find? (standsFor m.world table) with
  | none => exact absurd ha (indexed.find?_tables_eq_none.1 found a)
  | some b =>
    have hb : tree.Represents m.world table b :=
      indexed.represents_iff.2 ⟨List.mem_of_find?_eq_some found, List.find?_some found⟩
    rw [h.represents_unique ht hb ha]

/-- Whoever was given a node for a table was given one that stands for it. -/
theorem Moment.Lived.represents_of_attach (h : m.Lived) (ht : m.world.trees[t]? = some tree)
    (run : attachTable t table m.world = .done (.ok a) w) :
    ∃ tree', w.trees[t]? = some tree' ∧ tree'.Represents w table a := by
  have indexed := (h.coherent ht).indexed
  by_cases some_ : ∃ b, tree.Represents m.world table b
  · obtain ⟨b, hb⟩ := some_
    obtain ⟨e, rfl⟩ := Progress.done.inj ((h.attachTable_found ht hb).symm.trans run)
    cases e
    exact ⟨tree, ht, hb⟩
  · have nobody : ∀ b, ¬tree.Represents m.world table b := fun b hb => some_ ⟨b, hb⟩
    cases next : tree.nodes.nextKey? with
    | none =>
      rw [attachTable_eq ht, indexed.find?_tables_eq_none.2 nobody, next] at run
      cases run
    | some k =>
      obtain ⟨a', w', run', key, gets⟩ := attachTable_gets ht indexed nobody next
      obtain ⟨e, rfl⟩ := Progress.done.inj (run'.symm.trans run)
      cases e
      obtain ⟨tree', trees, gains⟩ := gets.gains
      have ht' : w'.trees[t]? = some tree' := by
        rw [trees, List.getElem?_set_self (List.getElem?_eq_some_iff.1 ht).1]
      refine ⟨tree', ht', ?_, by rw [Adapter.role, gets.identity]; rfl, tree.context, ?_⟩
      · rw [gains.get?, if_pos rfl]
      · rw [World.Unlatched, gets.peers, gets.peer]
        simp

/-- Attaching is idempotent for every table that is not known to be gone. At every moment at most
one node of a tree stands for the table; who attaches the table gets that node and nothing changes,
or, if there is none, the tree gets one node for the table with a peer of its own. So whoever
attaches the table twice gets the same node, unless in between the table was taken out or the peer
was latched. -/
theorem attaching_is_idempotent (h : m.Lived) (ht : m.world.trees[t]? = some tree)
    (there : table < m.world.tables.length) : m.AttachesOnce t tree table where
  alone ha hb := h.represents_unique ht ha hb
  found ha := h.attachTable_found ht ha
  made nobody {k} next := by
    obtain ⟨a, w', run, key, gets⟩ := attachTable_gets ht (h.coherent ht).indexed nobody next
    refine ⟨a, w', run, key, gets, fun b hb => ?_⟩
    obtain ⟨peer, hp, -⟩ := h.referred.context hb (List.getElem?_eq_getElem (h.keyed.planted hb))
    rw [gets.peer]
    exact Nat.ne_of_lt (List.getElem?_eq_some_iff.1 hp).1
  full nobody next := by
    rw [attachTable_eq ht, (h.coherent ht).indexed.find?_tables_eq_none.2 nobody, next]
  bridges attaching _ _ run := attaching.run run
  again {act a w₁} attaching run := by
    obtain ⟨result, w₀, run₀, -⟩ := attachTable_run t table m.world
    obtain ⟨w', run', trees, peers⟩ := attaching.run run₀
    obtain ⟨rfl, rfl⟩ := Progress.done.inj (run'.symm.trans run)
    obtain ⟨m₁, goes, e, -⟩ := (attaching.meets h there).ends run
    refine ⟨m₁, goes, e, fun {m₂ act'} spares attaching' => ?_⟩
    obtain ⟨tree₀, ht₀, stored, isTable, live⟩ := h.represents_of_attach ht run₀
    have represents₁ : tree₀.Represents m₁.world table a := by
      refine ⟨stored, isTable, ?_⟩
      rw [e]
      unfold World.Unlatched
      rw [peers]
      exact live
    have ht₁ : m₁.world.trees[t]? = some tree₀ := by rw [e, trees, ht₀]
    obtain ⟨tree₂, ht₂, represents₂⟩ := spares.represents (h.goes goes) ht₁ represents₁
    have lived₂ := (h.goes goes).goes spares.goes
    exact attaching'.run (lived₂.attachTable_found ht₂ represents₂)

/-- So it is for a table that is attached for the first time. -/
theorem attaching_is_idempotent_once : ∃ m : Moment Unit, m.Lived ∧
    m.world.trees[0]? = some ((Tree.empty 0).add .firstTable) ∧
    ((Tree.empty 0).add .firstTable).Represents m.world 0 .firstTable ∧
    m.AttachesOnce 0 ((Tree.empty 0).add .firstTable) 0 := by
  obtain ⟨m, lived, e, -⟩ := Moment.lived_of_grid (g := ⟨"", [], []⟩) (by simp [Grid.Rectangular]) ()
    (.client 0)
  have ht : m.world.trees[0]? = some ((Tree.empty 0).add .firstTable) := by rw [e]; rfl
  refine ⟨m, lived, ht, ⟨by decide +kernel, rfl, 0, ?_⟩, attaching_is_idempotent lived ht ?_⟩
  · rw [e]
    rfl
  · rw [e]
    exact Nat.one_pos

end TableAccess
