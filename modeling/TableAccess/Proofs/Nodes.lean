import TableAccess.Proofs.Keys
import TableAccess.Proofs.Moment

/-!
# What trees keep

Every deed leaves the nodes of a tree as they are, adds one node under the next key, or takes a
table out. Whatever the order of the deeds, and whichever node a new one is made through, also one
that has left the tree, the tree stays coherent: keys and identities agree, and a parent is where
its children say it is.

## The model

* `Moment.Change` — what one deed does to a tree; `Step.change` — that it does no more.
* `Tree.Coherent` — keys, identities and parents of the nodes of a tree fit together;
  `Lived.coherent` — that they always do.
* `Moment.Keyed` — what is remembered of the nodes that were made; `Lived.keyed` — that it is.
-/

namespace TableAccess

variable {μ : Type} {m m' : Moment μ} {t : TreeId} {tree tree' : Tree} {a b : Adapter}
  {k table : NodeKey} {i : Identity}

/-! ### What one deed does to a tree -/

namespace Moment

/-- What became of a tree with one deed. -/
inductive Change (m m' : Moment μ) (t : TreeId) (tree' : Tree) : Prop where
  /-- It was planted. -/
  | planted (c : ContextId) (new : m.world.trees[t]? = none) (e : tree' = .empty c)
      (past : m'.past = m.past)
  /-- Its nodes stayed as they were. -/
  | kept {tree : Tree} (ht : m.world.trees[t]? = some tree) (nodes : tree'.nodes = tree.nodes)
      (index : tree'.index = tree.index) (context : tree'.context = tree.context)
      (made : ∀ a, a.tree = t → .made a ∈ m'.past → .made a ∈ m.past)
      (removals : m'.removals t = m.removals t)
  /-- A table was attached. -/
  | attached {tree : Tree} {a : Adapter} (ht : m.world.trees[t]? = some tree)
      (next : tree.nodes.nextKey? = some a.key) (identity : a.identity = .table a.key)
      (parent : a.parent = none) (here : a.tree = t) (e : tree' = tree.add a)
      (past : m'.past = m.past ++ [.made a])
  /-- A row, column or cell got its node, through a node of the same table. -/
  | made {tree : Tree} {a through : Adapter} {parent : NodeKey} (ht : m.world.trees[t]? = some tree)
      (next : tree.nodes.nextKey? = some a.key) (free : tree.find? a.identity = none)
      (known : .made through ∈ m.past) (there : through.tree = t)
      (same : a.identity.tableKey = through.tableKey) (shared : a.peer = through.peer)
      (parent_eq : a.parent = some parent) (isParent : tree.IsParent a.identity parent)
      (here : a.tree = t) (e : tree' = tree.add a) (past : m'.past = m.past ++ [.made a])
  /-- A table was taken out. -/
  | detached {tree : Tree} (ht : m.world.trees[t]? = some tree) (table : NodeKey)
      (e : tree' = tree.removeTable table)
      (past : m'.past = m.past ++ [.detached t (tree.keysOf table).length])

theorem removals_of_past {deeds : List Deed} (past : m'.past = m.past ++ deeds) (t : TreeId) :
    m'.removals t = m.removals t + (deeds.filterMap (Deed.removed? t)).sum := by
  rw [removals, past, List.filterMap_append, List.sum_append]
  rfl

theorem removals_of_detached {nodes : Nat} (past : m'.past = m.past ++ [.detached t nodes]) :
    m'.removals t = m.removals t + nodes := by
  rw [removals_of_past past]
  simp [Deed.removed?]

theorem contextStep_tree? {w : World μ} {deeds : List Deed} {contexts : List (Context Ticket)}
    {tickets : Nat} (h : ContextStep w deeds contexts tickets) {d : Deed} (hd : d ∈ deeds) :
    d.tree? = none := by
  obtain ⟨task, rfl | rfl | rfl⟩ := contextStep_deed h hd <;> rfl

theorem tableStep_tree? {w : World μ} {deeds : List Deed} {tables : List (Option Table)}
    (h : TableStep w deeds tables) {d : Deed} (hd : d ∈ deeds) : d.tree? = none := by
  obtain ⟨t, ⟨g, rfl⟩ | ⟨task, e, rfl⟩ | rfl⟩ := tableStep_deed h hd <;> rfl

/-- Deeds that change no nodes of a tree keep them. -/
theorem Change.of_apart {deeds : List Deed} {tree : Tree} (ht : m.world.trees[t]? = some tree)
    (nodes : tree'.nodes = tree.nodes) (index : tree'.index = tree.index)
    (context : tree'.context = tree.context) (past : m'.past = m.past ++ deeds)
    (apart : ∀ d ∈ deeds, d.tree? ≠ some t) : Change m m' t tree' := by
  refine .kept ht nodes index context (?_) ?_
  · intro a here mem
    rw [past, List.mem_append] at mem
    refine mem.resolve_right fun new => apart _ new ?_
    simp [Deed.tree?, here]
  · have none : deeds.filterMap (Deed.removed? t) = [] := by
      rw [List.filterMap_eq_nil_iff]
      intro d hd
      have := apart d hd
      cases d <;> simp_all [Deed.removed?, Deed.tree?]
    rw [removals_of_past past, none]
    rfl

/-- What lies at a place of a list of which one item was changed was changed, or lay there. -/
theorem getElem?_modify_cases {α : Type} {items : List α} {f : α → α} {n n' : Nat} {item item' : α}
    (hn : items[n]? = some item) (h : (items.modify n f)[n']? = some item') :
    n = n' ∧ f item = item' ∨ n ≠ n' ∧ items[n']? = some item' := by
  rw [List.getElem?_modify] at h
  obtain ⟨item₀, before, e⟩ := Option.map_eq_some_iff.1 h
  by_cases here : n = n'
  · subst here
    cases hn.symm.trans before
    exact .inl ⟨rfl, (if_pos rfl).symm.trans e⟩
  · exact .inr ⟨here, before.trans (congrArg some ((if_neg here).symm.trans e))⟩

/-- A deed on trees, peers or bridges changes a tree in one of these ways. -/
theorem change_of_treeStep {deeds : List Deed} {trees : List Tree} {peers : List Peer}
    {bridges : List Bridge} (h : TreeStep m deeds trees peers bridges)
    (past : m'.past = m.past ++ deeds) (ht : trees[t]? = some tree') : Change m m' t tree' := by
  cases h with
  | plant c =>
    rw [List.getElem?_append] at ht
    split at ht
    · exact .of_apart ht rfl rfl rfl past (by simp)
    · rename_i beyond
      have new : m.world.trees[t]? = none := List.getElem?_eq_none (Nat.le_of_not_lt beyond)
      have e : tree' = .empty c := by
        have := List.mem_of_getElem? ht
        simpa using this
      exact .planted c new e (by simpa using past)
  | letGo t' =>
    rw [List.getElem?_modify] at ht
    obtain ⟨tree, htree, e⟩ := Option.map_eq_some_iff.1 ht
    refine .of_apart htree ?_ ?_ ?_ past (by simp) <;> · rw [← e]; split <;> rfl
  | @attach t' tree table k hs there free next =>
    rcases getElem?_modify_cases hs ht with ⟨rfl, e⟩ | ⟨other, ht⟩
    · exact .attached (a := ⟨k, .table k, none, m.world.peers.length, t'⟩) hs next rfl rfl rfl
        e.symm past
    · exact .of_apart ht rfl rfl rfl past (by simpa [Deed.tree?] using other)
  | @make t' tree i k parent through hs free next known there same isParent =>
    rcases getElem?_modify_cases hs ht with ⟨rfl, e⟩ | ⟨other, ht⟩
    · exact .made (a := ⟨k, i, some parent, through.peer, t'⟩) hs next free known there same rfl
        rfl isParent rfl e.symm past
    · exact .of_apart ht rfl rfl rfl past (by simpa [Deed.tree?] using other)
  | @detach t' tree hs table =>
    rcases getElem?_modify_cases hs ht with ⟨rfl, e⟩ | ⟨other, ht⟩
    · exact .detached hs table e.symm past
    · exact .of_apart ht rfl rfl rfl past (by simpa [Deed.tree?] using other)
  | refer | invalidate | span | root => exact .of_apart ht rfl rfl rfl past (by simp)

/-- One deed does no more to a tree than this. -/
theorem Step.change (h : m.Step m') (ht : m'.world.trees[t]? = some tree') : Change m m' t tree' := by
  cases h with
  | aside => exact .of_apart ht rfl rfl rfl (List.append_nil _).symm (by simp)
  | contexts h =>
    exact .of_apart ht rfl rfl rfl rfl fun d hd => by simp [contextStep_tree? h hd]
  | tables h =>
    exact .of_apart ht rfl rfl rfl rfl fun d hd => by simp [tableStep_tree? h hd]
  | trees h => exact change_of_treeStep h rfl ht

end Moment

/-! ### Coherent trees -/

namespace Tree

/-- Keys, identities and parents of the nodes of a tree fit together. -/
structure Coherent (tree : Tree) (t : TreeId) : Prop where
  /-- Keys and identities agree. -/
  indexed : tree.Indexed
  /-- A node knows its tree. -/
  here : ∀ {k : NodeKey} {a : Adapter}, tree.get? k = some a → a.tree = t
  /-- A table has no parent and is its own table; all others have one. -/
  parent : ∀ {k : NodeKey} {a : Adapter}, tree.get? k = some a →
    (a.parent = none ∧ a.identity = .table a.key) ∨
      ∃ p, a.parent = some p ∧ tree.IsParent a.identity p

theorem coherent_empty (c : ContextId) (t : TreeId) : (empty c).Coherent t where
  indexed := indexed_empty c
  here h := by simp [get?, empty, Arena.get?, Arena.empty] at h
  parent h := by simp [get?, empty, Arena.get?, Arena.empty] at h

/-- The parent of a node does not go away without the node. -/
theorem IsParent.mono (h : tree.IsParent i k)
    (rows : ∀ {table row a}, i.tableKey = table → tree.find? (.row table row) = some a →
      tree'.find? (.row table row) = some a) :
    tree'.IsParent i k := by
  cases h with
  | row => exact .row _ _
  | column => exact .column _ _
  | cell ha column => exact .cell (rows rfl ha) column

theorem IsParent.ne_table (h : tree.IsParent i k) : i ≠ .table table := by
  cases h <;> simp

theorem Coherent.add (h : tree.Coherent t) (next : tree.nodes.nextKey? = some a.key)
    (free : tree.find? a.identity = none) (here : a.tree = t)
    (parent : (a.parent = none ∧ a.identity = .table a.key) ∨
      ∃ p, a.parent = some p ∧ tree.IsParent a.identity p) : (tree.add a).Coherent t := by
  have rows : ∀ {i p}, tree.IsParent i p → (tree.add a).IsParent i p := fun isParent =>
    isParent.mono fun {table row b} _ hb => by
      obtain ⟨stored, identity⟩ := h.indexed.find?_eq_some_iff.1 hb
      rw [(h.indexed.add next free).find?_eq_some_iff]
      exact ⟨h.indexed.get?_add_of_some next stored, identity⟩
  refine ⟨h.indexed.add next free, fun {k b} hb => ?_, fun {k b} hb => ?_⟩
  · rw [h.indexed.get?_add next] at hb
    split at hb
    · cases hb
      exact here
    · exact h.here hb
  · rw [h.indexed.get?_add next] at hb
    split at hb
    · cases hb
      exact parent.imp_right fun ⟨p, e, isParent⟩ => ⟨p, e, rows isParent⟩
    · exact (h.parent hb).imp_right fun ⟨p, e, isParent⟩ => ⟨p, e, rows isParent⟩

/-- No node stands for a table under the next key. -/
theorem Coherent.find?_table_nextKey (h : tree.Coherent t) (next : tree.nodes.nextKey? = some k) :
    tree.find? (.table k) = none := by
  rw [h.indexed.find?_eq_none_iff]
  intro k' b hb identity
  have own : b.key = k := by
    rcases h.parent hb with ⟨-, e⟩ | ⟨p, -, isParent⟩
    · rw [identity] at e
      exact (Identity.table.inj e).symm
    · exact absurd identity isParent.ne_table
  rw [← h.indexed.key hb, own, get?, h.indexed.arena.get?_nextKey next] at hb
  cases hb

theorem Coherent.removeTable (h : tree.Coherent t) (table : NodeKey) :
    (tree.removeTable table).Coherent t := by
  have indexed := h.indexed.removeTable table
  refine ⟨indexed, fun {k a} ha => ?_, fun {k a} ha => ?_⟩
  · exact h.here (h.indexed.of_removeTable ha).1
  · obtain ⟨stored, other⟩ := h.indexed.of_removeTable ha
    refine (h.parent stored).imp_right fun ⟨p, e, isParent⟩ => ⟨p, e, ?_⟩
    refine isParent.mono fun {table' row b} same hb => ?_
    obtain ⟨stored', identity⟩ := h.indexed.find?_eq_some_iff.1 hb
    have stays : b.identity.tableKey ≠ table := by
      rw [identity]
      exact same ▸ other
    rw [indexed.find?_eq_some_iff, h.indexed.get?_removeTable, stored']
    exact ⟨by simp [Option.filter, stays], identity⟩

/-- The nodes decide whether a tree is coherent. -/
theorem Coherent.congr (h : tree.Coherent t) (nodes : tree'.nodes = tree.nodes)
    (index : tree'.index = tree.index) : tree'.Coherent t := by
  cases tree
  cases tree'
  cases nodes
  cases index
  refine ⟨⟨h.indexed.arena, h.indexed.key, h.indexed.index⟩, h.here, fun ha => ?_⟩
  exact (h.parent ha).imp_right fun ⟨p, e, isParent⟩ => ⟨p, e, isParent.mono fun _ hb => hb⟩

end Tree

namespace Moment

/-- Every tree is coherent at every moment. -/
theorem Lived.coherent (h : m.Lived) (ht : m.world.trees[t]? = some tree) : tree.Coherent t := by
  refine h.keeps (P := fun m => ∀ {t tree}, m.world.trees[t]? = some tree → tree.Coherent t)
    (fun memory {t tree} ht => ?_) (fun {m m'} step ih {t tree'} ht => ?_) ht
  · simp [first, World.empty] at ht
  · cases step.change ht with
    | planted c new e past =>
      rw [e]
      exact Tree.coherent_empty c t
    | kept ht nodes index context made removals => exact (ih ht).congr nodes index
    | attached ht next identity parent here e past =>
      rw [e]
      refine (ih ht).add next ?_ here (.inl ⟨parent, identity⟩)
      rw [identity]
      exact (ih ht).find?_table_nextKey next
    | made ht next free known there same shared parent_eq isParent here e past =>
      rw [e]
      exact (ih ht).add next free here (.inr ⟨_, parent_eq, isParent⟩)
    | detached ht table e past =>
      rw [e]
      exact (ih ht).removeTable table

/-! ### Nodes that were made -/

/-- What holds when a node is made: its key is the next one of its tree, and it stands for the table
with its own key and gets a peer of its own, or is made through a node of its table. -/
inductive Born (m m' : Moment μ) (a : Adapter) : Prop where
  | table {tree : Tree} {peer : Peer} (ht : m.world.trees[a.tree]? = some tree)
      (next : tree.nodes.nextKey? = some a.key) (identity : a.identity = .table a.key)
      (hp : m'.world.peers[a.peer]? = some peer) (context : peer.context = tree.context)
  | part {tree : Tree} {through : Adapter} (ht : m.world.trees[a.tree]? = some tree)
      (next : tree.nodes.nextKey? = some a.key) (known : .made through ∈ m.past)
      (there : through.tree = a.tree) (same : a.identity.tableKey = through.identity.tableKey)
      (shared : a.peer = through.peer) (isPart : ∀ table, a.identity ≠ .table table)

theorem Born.next (h : m.Born m' a) :
    ∃ tree, m.world.trees[a.tree]? = some tree ∧ tree.nodes.nextKey? = some a.key := by
  cases h with
  | table ht next => exact ⟨_, ht, next⟩
  | part ht next => exact ⟨_, ht, next⟩

/-- A deed makes no node, or it makes one. -/
theorem Step.makes (h : m.Step m') : ∃ deeds, m'.past = m.past ++ deeds ∧
    ((∀ a, .made a ∉ deeds) ∨ ∃ a, deeds = [.made a] ∧ m.Born m' a) := by
  cases h with
  | aside => exact ⟨[], (List.append_nil _).symm, .inl fun a => List.not_mem_nil⟩
  | contexts h =>
    refine ⟨_, rfl, .inl fun a new => ?_⟩
    simpa [Deed.tree?] using contextStep_tree? h new
  | tables h =>
    refine ⟨_, rfl, .inl fun a new => ?_⟩
    simpa [Deed.tree?] using tableStep_tree? h new
  | trees h =>
    refine ⟨_, rfl, ?_⟩
    cases h with
    | @attach t tree table k ht there free next =>
      have last : (m.world.peers ++ [⟨table, tree.context, false⟩])[m.world.peers.length]? =
          some ⟨table, tree.context, false⟩ := by simp
      exact .inr ⟨_, rfl, .table ht next rfl last rfl⟩
    | make ht free next known here same isParent =>
      exact .inr ⟨_, rfl, .part ht next known here same rfl fun _ => isParent.ne_table⟩
    | _ => exact .inl (by simp)

/-- A node that was made was made before, or is made with this deed. -/
theorem Step.born (h : m.Step m') (ha : .made a ∈ m'.past) :
    .made a ∈ m.past ∨ m.Born m' a ∧ m'.past = m.past ++ [.made a] := by
  obtain ⟨deeds, past, none | ⟨b, rfl, born⟩⟩ := h.makes
  · rw [past, List.mem_append] at ha
    exact .inl (ha.resolve_right (none a))
  · rw [past, List.mem_append, List.mem_singleton] at ha
    refine ha.imp_right fun new => ?_
    obtain rfl := Deed.made.inj new
    exact ⟨born, past⟩

theorem Step.trees_length (h : m.Step m') : m.world.trees.length ≤ m'.world.trees.length := by
  cases h with
  | trees h => cases h <;> simp
  | _ => exact Nat.le_refl _

/-- What is remembered of the nodes that were made. -/
structure Keyed (m : Moment μ) : Prop where
  /-- They were made in trees that are there. -/
  planted : ∀ {a : Adapter}, .made a ∈ m.past → a.tree < m.world.trees.length
  /-- A node in a tree was made. -/
  stored : ∀ {t : TreeId} {tree : Tree} {k : NodeKey} {a : Adapter},
    m.world.trees[t]? = some tree → tree.get? k = some a → .made a ∈ m.past
  /-- A table stands for itself. -/
  own : ∀ {a : Adapter} {table : NodeKey}, .made a ∈ m.past → a.identity = .table table →
    a.key = table
  /-- The node of its table was made before, and has the same peer. -/
  family : ∀ {a : Adapter}, .made a ∈ m.past → ∃ b, .made b ∈ m.past ∧ b.identity = .table b.key ∧
    b.key = a.identity.tableKey ∧ b.tree = a.tree ∧ b.peer = a.peer
  /-- The slots of a tree have come as far as the removals have brought them. -/
  spent : ∀ {t : TreeId} {tree : Tree}, m.world.trees[t]? = some tree →
    tree.nodes.Spent (m.removals t)
  /-- A tree knows the keys it gave. -/
  knows : ∀ {tree : Tree} {a : Adapter}, m.world.trees[a.tree]? = some tree →
    m.removals a.tree < 2 ^ 31 → .made a ∈ m.past → tree.nodes.Knows a.key
  /-- No key was given twice. -/
  once : ∀ {a b : Adapter}, m.removals a.tree < 2 ^ 31 → .made a ∈ m.past → .made b ∈ m.past →
    a.tree = b.tree → a.key = b.key → a = b

theorem removals_le (h : m.Step m') (t : TreeId) : m.removals t ≤ m'.removals t := by
  obtain ⟨deeds, past⟩ := h.past
  rw [removals_of_past past.symm]
  exact Nat.le_add_right _ _

theorem keyed_first (memory : μ) : (first memory).Keyed := by
  refine ⟨?_, ?_, ?_, ?_, ?_, ?_, ?_⟩ <;> simp [first, World.empty]

theorem Keyed.stored_step {tree' : Tree} (h : m.Keyed) (lived : m.Lived) (step : m.Step m')
    (ht : m'.world.trees[t]? = some tree') (ha : tree'.get? k = some a) : .made a ∈ m'.past := by
  have old : ∀ {tree}, m.world.trees[t]? = some tree → tree.get? k = some a → .made a ∈ m'.past :=
    fun ht ha => step.past.subset (h.stored ht ha)
  have added : ∀ {tree b}, m.world.trees[t]? = some tree → tree.nodes.nextKey? = some b.key →
      (tree.add b).get? k = some a → m'.past = m.past ++ [.made b] → .made a ∈ m'.past := by
    intro tree b ht next ha past
    rw [(lived.coherent ht).indexed.get?_add next] at ha
    split at ha
    · cases ha
      simp [past]
    · exact old ht ha
  cases step.change ht with
  | planted c new e past =>
    rw [e] at ha
    simp [Tree.get?, Tree.empty, Arena.get?, Arena.empty] at ha
  | kept ht nodes =>
    rw [Tree.get?, nodes] at ha
    exact old ht ha
  | attached ht next identity parent here e past => exact added ht next (e ▸ ha) past
  | made ht next free known there same shared parent_eq isParent here e past =>
    exact added ht next (e ▸ ha) past
  | detached ht table e past =>
    rw [e] at ha
    exact old ht ((lived.coherent ht).indexed.of_removeTable ha).1

theorem Keyed.family_step (h : m.Keyed) (step : m.Step m') (ha : .made a ∈ m'.past) :
    ∃ b, .made b ∈ m'.past ∧ b.identity = .table b.key ∧ b.key = a.identity.tableKey ∧
      b.tree = a.tree ∧ b.peer = a.peer := by
  have kept : ∀ {b : Adapter}, .made b ∈ m.past → .made b ∈ m'.past := fun hb =>
    step.past.subset hb
  rcases step.born ha with old | ⟨born, -⟩
  · obtain ⟨b, hb, rest⟩ := h.family old
    exact ⟨b, kept hb, rest⟩
  · cases born with
    | table ht next identity => exact ⟨a, ha, identity, by rw [identity]; rfl, rfl, rfl⟩
    | part ht next known there same shared =>
      obtain ⟨b, hb, identity, key, tree, peer⟩ := h.family known
      exact ⟨b, kept hb, identity, key.trans same.symm, tree.trans there, peer.trans shared.symm⟩

theorem Keyed.spent_step {tree' : Tree} (h : m.Keyed) (lived : m.Lived) (step : m.Step m')
    (ht : m'.world.trees[t]? = some tree') : tree'.nodes.Spent (m'.removals t) := by
  have grows := removals_le step t
  cases step.change ht with
  | planted c new e past =>
    rw [e]
    exact Arena.spent_empty
  | kept ht nodes index context made removals =>
    rw [nodes, removals]
    exact h.spent ht
  | attached ht next identity parent here e past =>
    rw [e]
    exact ((lived.coherent ht).indexed.arena.spent_insert next _ (h.spent ht)).mono grows
  | made ht next free known there same shared parent_eq isParent here e past =>
    rw [e]
    exact ((lived.coherent ht).indexed.arena.spent_insert next _ (h.spent ht)).mono grows
  | detached ht table e past =>
    rw [e, removals_of_detached past]
    exact Tree.spent_removeTable (h.spent ht) table

theorem Keyed.knows_step {tree' : Tree} (h : m.Keyed) (lived : m.Lived) (step : m.Step m')
    (ht : m'.world.trees[a.tree]? = some tree') (few : m'.removals a.tree < 2 ^ 31)
    (ha : .made a ∈ m'.past) : tree'.nodes.Knows a.key := by
  have few' := Nat.lt_of_le_of_lt (removals_le step a.tree) few
  have added : ∀ {tree b}, m.world.trees[a.tree]? = some tree → b.tree = a.tree →
      tree.nodes.nextKey? = some b.key → m'.past = m.past ++ [.made b] →
      (tree.add b).nodes.Knows a.key := by
    intro tree b ht here next past
    have arena := (lived.coherent ht).indexed.arena
    rw [past, List.mem_append, List.mem_singleton] at ha
    rcases ha with old | new
    · exact arena.knows_insert_of next b (h.knows ht few' old)
    · cases Deed.made.inj new
      exact arena.knows_insert next a
  cases step.change ht with
  | planted c new e past =>
    rw [past] at ha
    exact absurd (h.planted ha) (Nat.not_lt.2 (List.getElem?_eq_none_iff.1 new))
  | kept ht nodes index context made removals =>
    rw [nodes]
    exact h.knows ht few' (made a rfl ha)
  | attached ht next identity parent here e past => exact e ▸ added ht here next past
  | made ht next free known there same shared parent_eq isParent here e past =>
    exact e ▸ added ht here next past
  | detached ht table e past =>
    rw [e]
    rw [past] at ha
    have old : .made a ∈ m.past := by simpa using ha
    rw [removals_of_detached past] at few
    exact Tree.knows_removeTable (h.knows ht few' old) (h.spent ht) table few

/-- A node that is born gets a key that no node of its tree has got. -/
theorem Keyed.key_ne (h : m.Keyed) (lived : m.Lived) (few : m.removals a.tree < 2 ^ 31)
    (ha : .made a ∈ m.past) (born : m.Born m' b) (here : a.tree = b.tree) : a.key ≠ b.key := by
  intro same
  obtain ⟨tree, ht, next⟩ := born.next
  rw [← here] at ht
  rw [← same] at next
  exact (lived.coherent ht).indexed.arena.not_knows_nextKey next (h.knows ht few ha)

theorem Keyed.step (h : m.Keyed) (lived : m.Lived) (step : m.Step m') : m'.Keyed where
  planted {a} ha := by
    refine Nat.lt_of_lt_of_le ?_ step.trees_length
    rcases step.born ha with old | ⟨born, -⟩
    · exact h.planted old
    · obtain ⟨tree, ht, -⟩ := born.next
      exact (List.getElem?_eq_some_iff.1 ht).1
  stored ht ha := h.stored_step lived step ht ha
  own {a table} ha isTable := by
    rcases step.born ha with old | ⟨born, -⟩
    · exact h.own old isTable
    · cases born with
      | table ht next identity =>
        rw [isTable] at identity
        exact (Identity.table.inj identity).symm
      | part ht next known there same shared isPart => exact absurd isTable (isPart table)
  family ha := h.family_step step ha
  spent ht := h.spent_step lived step ht
  knows ht few ha := h.knows_step lived step ht few ha
  once {a b} few ha hb here same := by
    have few' := Nat.lt_of_le_of_lt (removals_le step a.tree) few
    rcases step.born ha with oldA | ⟨bornA, pastA⟩ <;> rcases step.born hb with oldB | ⟨bornB, pastB⟩
    · exact h.once few' oldA oldB here same
    · exact absurd same (h.key_ne lived few' oldA bornB here)
    · exact absurd same.symm (h.key_ne lived (here ▸ few') oldB bornA here.symm)
    · rw [pastA] at pastB
      simpa using pastB

/-- What is remembered of the nodes that were made, at every moment. -/
theorem Lived.keyed (h : m.Lived) : m.Keyed := by
  refine (h.keeps (P := fun m => m.Lived ∧ m.Keyed) (fun memory => ?_) fun step ih => ?_).2
  · exact ⟨⟨memory, .refl _⟩, keyed_first memory⟩
  · exact ⟨ih.1.goes step.goes, ih.2.step ih.1 step⟩

/-- The first row or the first column of a table that was just attached gets its node. -/
theorem lived_of_part (table : Table) {config : Config} {context : Context Ticket}
    (h : Context.spawn config = .ok context) (new : table.New) (memory : μ) (thread : Thread)
    (part : i = .row (Arena.keyAt 0 1) 0 ∨ i = .column (Arena.keyAt 0 1) 0) :
    ∃ m : Moment μ, m.Lived ∧
      m.world = (World.attached memory thread context table).modifyTree 0
        (·.add ⟨Arena.keyAt 1 1, i, some (Arena.keyAt 0 1), 0, 0⟩) ∧
      ∀ t, m.edits t = [] ∧ m.removals t = 0 := by
  obtain ⟨m, lived, e, untouched⟩ := lived_of_attached table h new memory thread
  have known := lived.keyed.stored (t := 0) (k := Arena.keyAt 0 1) (by rw [e]; rfl) rfl
  have made : m.Step ⟨m.past ++ [.made ⟨Arena.keyAt 1 1, i, some (Arena.keyAt 0 1), 0, 0⟩],
      m.world.modifyTree 0 (·.add ⟨Arena.keyAt 1 1, i, some (Arena.keyAt 0 1), 0, 0⟩)⟩ := by
    rcases part with rfl | rfl
    · exact .trees (.make (by rw [e]; rfl) (by decide +kernel) (by decide +kernel) known rfl rfl
        (.row _ _))
    · exact .trees (.make (by rw [e]; rfl) (by decide +kernel) (by decide +kernel) known rfl rfl
        (.column _ _))
  refine ⟨_, lived.goes made.goes, by rw [e], fun t => ⟨?_, ?_⟩⟩
  · rw [← (untouched t).1, edits, edits, List.filterMap_append]
    exact List.append_nil _
  · rw [removals_of_past rfl, (untouched t).2]
    rfl

end Moment

/-- The node of the first table. -/
def Adapter.firstTable : Adapter := ⟨Arena.keyAt 0 1, .table (Arena.keyAt 0 1), none, 0, 0⟩

/-- The node of its first row. -/
def Adapter.firstRow : Adapter :=
  ⟨Arena.keyAt 1 1, .row (Arena.keyAt 0 1) 0, some (Arena.keyAt 0 1), 0, 0⟩

end TableAccess
