import TableAccess.Proofs.Census
import TableAccess.Proofs.Latches

/-!
# Bystanders

A request that is about one table leaves the others alone. Nothing that it finds out about its own
table, also not that the table panics, makes it touch the nodes, the peers or the content of another
one. So it is for whatever is asked through the nodes of other tables; and what is asked of a whole
tree, where every table has its turn, takes nothing from a table that stays.

## The model

* `World.Spares` — a table with its peers and nodes is as it was before.
* `Bystander` — a table that requests are not about, `Bystander.Stands` what they may count on.
* `Bystander.request` — such requests spare it; `attachTable_spares`, `attach_spares` — so does
  attaching another table.
* `World.Hosts`, `hosting_request` — a table that stays keeps its nodes, whatever is requested.
-/

namespace TableAccess

variable {μ α : Type}

/-! ### What belongs to a table -/

namespace World

/-- A node is in a tree under a key. -/
def Stores (w : World μ) (t : TreeId) (k : NodeKey) (a : Adapter) : Prop :=
  ∃ tree, w.trees[t]? = some tree ∧ tree.get? k = some a

/-- A node is read from a table. -/
def Reads (w : World μ) (a : Adapter) (table : TableId) : Prop :=
  ∃ peer, w.peers[a.peer]? = some peer ∧ peer.table = table

/-- A table, its peers and its nodes are as they were, and so is whatever else its answers depend
on in a world. -/
structure Spares (table : TableId) (w w' : World μ) : Prop where
  /-- The table would answer as before. -/
  content : w'.table? table = w.table? table
  /-- It has the same peers, and they are latched or not as they were. -/
  peers : ∀ {p : PeerId} {peer : Peer}, peer.table = table →
    (w'.peers[p]? = some peer ↔ w.peers[p]? = some peer)
  /-- It has the same nodes, under the same keys. -/
  nodes : ∀ {t : TreeId} {k : NodeKey} {a : Adapter}, w.Reads a table →
    (w'.Stores t k a ↔ w.Stores t k a)
  /-- The same trees are held. -/
  held : ∀ t : TreeId, (w'.trees[t]?).map Tree.alive = (w.trees[t]?).map Tree.alive
  /-- Its affinity is checked as before. -/
  checks : w'.checksOn = w.checksOn

namespace Spares

variable {table : TableId} {w w' w'' : World μ} {a : Adapter}

theorem refl (w : World μ) : w.Spares table w :=
  ⟨rfl, fun _ => Iff.rfl, fun _ => Iff.rfl, fun _ => rfl, rfl⟩

theorem reads (h : w.Spares table w') : w'.Reads a table ↔ w.Reads a table :=
  exists_congr fun _ => and_congr_left fun e => h.peers e

theorem trans (h : w.Spares table w') (h' : w'.Spares table w'') : w.Spares table w'' where
  content := h'.content.trans h.content
  peers own := (h'.peers own).trans (h.peers own)
  nodes own := (h'.nodes (h.reads.2 own)).trans (h.nodes own)
  held t := (h'.held t).trans (h.held t)
  checks := h'.checks.trans h.checks

end Spares

variable {table : TableId} {w : World μ} {t : TreeId} {tree : Tree} {a : Adapter}

/-- What is done to a tree spares a table if it leaves the nodes of the table. -/
theorem spares_modifyTree (ht : w.trees[t]? = some tree) {f : Tree → Tree}
    (alive : (f tree).alive = tree.alive)
    (same : ∀ {k a}, w.Reads a table → ((f tree).get? k = some a ↔ tree.get? k = some a)) :
    w.Spares table (w.modifyTree t f) where
  content := rfl
  peers _ := Iff.rfl
  nodes {t' k a} own := by
    unfold Stores
    rw [getElem?_modifyTree ht]
    by_cases here : t' = t
    · subst here
      simp [ht, same own]
    · rw [if_neg here]
  held t' := by
    rw [getElem?_modifyTree ht]
    by_cases here : t' = t
    · subst here
      simp [ht, alive]
    · rw [if_neg here]
  checks := rfl

/-- A new node of another table. -/
theorem spares_add (ht : w.trees[t]? = some tree) (indexed : tree.Indexed)
    (next : tree.nodes.nextKey? = some a.key) (other : ¬w.Reads a table) :
    w.Spares table (w.modifyTree t (·.add a)) := by
  refine spares_modifyTree ht rfl fun {k b} own => ?_
  rw [indexed.get?_add next]
  by_cases here : k = a.key
  · subst here
    have free : tree.get? a.key = none := indexed.arena.get?_nextKey next
    rw [if_pos rfl, free]
    refine ⟨fun e => ?_, fun e => by cases e⟩
    cases e
    exact absurd own other
  · rw [if_neg here]

/-- Another peer is latched, -/
theorem spares_latch {p : PeerId} (other : ∀ peer, w.peers[p]? = some peer → peer.table ≠ table) :
    w.Spares table { w with peers := w.peers.modify p ({ · with invalidated := true }) } where
  content := rfl
  peers {p' peer} own := by
    show (w.peers.modify p _)[p']? = _ ↔ _
    rw [List.getElem?_modify]
    by_cases here : p = p'
    · subst here
      cases hp : w.peers[p]? with
      | none => simp
      | some before =>
        have others := other before hp
        constructor
        · intro e
          cases e
          exact absurd (by simpa using own) others
        · intro e
          cases e
          exact absurd own others
    · simp [here]
  nodes _ := Iff.rfl
  held _ := rfl
  checks := rfl

/-- or there is one more. -/
theorem spares_newPeer {new : Peer} (other : new.table ≠ table) :
    w.Spares table { w with peers := w.peers ++ [new] } where
  content := rfl
  peers {p peer} own := by
    show (w.peers ++ [new])[p]? = _ ↔ _
    rcases Nat.lt_trichotomy p w.peers.length with lt | rfl | gt
    · rw [List.getElem?_append_left lt]
    · simp only [List.getElem?_concat_length, List.getElem?_eq_none (Nat.le_refl _), reduceCtorEq,
        iff_false, Option.some.injEq]
      rintro rfl
      exact other own
    · rw [List.getElem?_eq_none (Nat.le_of_lt gt), List.getElem?_eq_none]
      simpa using Nat.succ_le_of_lt gt
  nodes _ := Iff.rfl
  held _ := rfl
  checks := rfl

/-- Another table is asked. -/
theorem spares_setTable {t : TableId} {content : Table} (ht : w.table? t = some content)
    (other : t ≠ table) (new : Option Table) : w.Spares table (w.setTable t new) where
  content := by rw [World.table?_setTable ht, if_neg (Ne.symm other)]
  peers _ := Iff.rfl
  nodes _ := Iff.rfl
  held _ := rfl
  checks := rfl

end World

/-! ### Requests that are about other tables -/

/-- A table that requests are not about. -/
structure Bystander where
  /-- The table. -/
  table : TableId
  /-- Peers that refer to other tables. -/
  Others : PeerId → Prop
  /-- In a tree, its nodes have this table key. -/
  Keys : TreeId → NodeKey → Prop
  /-- Nodes of a tree are looked up by their keys. -/
  Walked : TreeId → Prop
  /-- In such a tree, it has a node under this key. -/
  Nodes : TreeId → NodeKey → Prop
  /-- The tree of a bridge. -/
  tree : BridgeId → TreeId
  /-- The roots that a bridge may have. -/
  Roots : BridgeId → NodeKey → Prop

namespace Bystander

variable (o : Bystander)

/-- What a request may count on whenever it goes on. Whatever else is under way may do as it likes
with the bystander, as long as it has the same nodes in the trees in which nodes are looked up. -/
structure Stands (w : World μ) : Prop where
  others : ∀ {p : PeerId} {peer : Peer}, o.Others p → w.peers[p]? = some peer →
    peer.table ≠ o.table
  indexed : ∀ {t : TreeId} {tree : Tree}, w.trees[t]? = some tree → tree.Indexed
  /-- The nodes of other tables. -/
  nodes : ∀ {t : TreeId} {tree : Tree} {k : NodeKey} {a : Adapter}, w.trees[t]? = some tree →
    tree.get? k = some a → ¬o.Keys t a.tableKey →
      o.Others a.peer ∧ a.tree = t ∧ (a.role = .table → a.tableKey = a.key)
  /-- Its own nodes. -/
  own : ∀ {t : TreeId} {tree : Tree}, o.Walked t → w.trees[t]? = some tree → ∀ k,
    o.Nodes t k ↔ ∃ a, tree.get? k = some a ∧ o.Keys t a.tableKey
  bridges : ∀ {b : BridgeId} {bridge : Bridge}, w.bridges[b]? = some bridge →
    bridge.tree = o.tree b ∧ ∀ k, bridge.root = some k → o.Roots b k

/-- The bystander is spared. -/
def conduct : Conduct μ := ⟨o.Stands, fun w₀ w => o.Stands w ∧ w₀.Spares o.table w⟩

/-- Nothing comes up that belongs to the bystander. -/
def scope : Scope :=
  { Scope.any with
    Peers := o.Others
    Family := fun t k p => o.Others p ∧ ¬o.Keys t k
    Refers := fun p t _ => o.Others p ∧ t ≠ o.table
    Gone := o.Others
    Reaches := fun t k => o.Walked t ∧ ¬o.Nodes t k
    Detachable := fun t k => ¬o.Keys t k
    Attachable := fun _ _ => False
    Over := fun b t => t = o.tree b
    Roots := o.Roots }

variable {o} {w w₀ : World μ} {t : TreeId} {tree : Tree} {k : NodeKey} {a : Adapter}

namespace Stands

variable (h : o.Stands w)

include h

theorem not_reads (other : o.Others a.peer) : ¬w.Reads a o.table := by
  rintro ⟨peer, hp, own⟩
  exact h.others other hp own

/-- A node of the bystander has one of its table keys. -/
theorem keys_of_reads (ht : w.trees[t]? = some tree) (ha : tree.get? k = some a)
    (own : w.Reads a o.table) : o.Keys t a.tableKey := by
  by_contra other
  obtain ⟨peer, hp, same⟩ := own
  exact h.others (h.nodes ht ha other).1 hp same

/-- A node of another table may come up. -/
theorem node (ht : w.trees[t]? = some tree) (ha : tree.get? k = some a)
    (other : ¬o.Keys t a.tableKey) : o.scope.Node t a := by
  obtain ⟨others, here, isTable⟩ := h.nodes ht ha other
  subst here
  have key := (h.indexed ht).key ha
  refine ⟨⟨others, other⟩, fun e => ⟨others, isTable e ▸ other⟩, ?_, fun may => ⟨may.1, ?_⟩, Iff.rfl⟩
  · unfold Adapter.role
    cases a.identity with
    | table => exact .inl rfl
    | row => exact .inr trivial
    | column => exact .inr trivial
    | cell => exact .inr ⟨trivial, trivial⟩
  · intro owns
    obtain ⟨b, hb, keys⟩ := (h.own may.1 ht _).1 owns
    rw [key, ha] at hb
    cases hb
    exact other keys

/-- In a tree in which all nodes may be looked up, no table is the bystander's. -/
theorem other_of_mem_tables (ht : w.trees[t]? = some tree) (all : ∀ k, o.scope.Reaches t k)
    (mem : a ∈ tree.tables) : ¬o.Keys t a.tableKey := fun keys =>
  (all a.key).2 ((h.own (all a.key).1 ht _).2 ⟨_, (h.indexed ht).get?_of_mem_tables mem, keys⟩)

/-- A tree comes to have other nodes. -/
theorem modifyTree (ht : w.trees[t]? = some tree) {f : Tree → Tree} (indexed : (f tree).Indexed)
    (nodes : ∀ {k a}, (f tree).get? k = some a → ¬o.Keys t a.tableKey →
      o.Others a.peer ∧ a.tree = t ∧ (a.role = .table → a.tableKey = a.key))
    (own : ∀ {k a}, o.Keys t a.tableKey → ((f tree).get? k = some a ↔ tree.get? k = some a)) :
    o.Stands (w.modifyTree t f) where
  others := h.others
  indexed {t' tree'} ht' := by
    rw [World.getElem?_modifyTree ht] at ht'
    split at ht'
    · cases ht'
      exact indexed
    · exact h.indexed ht'
  nodes {t' tree' k a} ht' ha other := by
    rw [World.getElem?_modifyTree ht] at ht'
    split at ht'
    · cases ht'
      subst t'
      exact nodes ha other
    · exact h.nodes ht' ha other
  own {t' tree'} walked ht' k := by
    rw [World.getElem?_modifyTree ht] at ht'
    split at ht'
    · cases ht'
      subst t'
      rw [h.own walked ht]
      exact exists_congr fun a => and_congr_left fun keys => (own keys).symm
    · exact h.own walked ht' k
  bridges := h.bridges

end Stands

theorem deeds (o : Bystander) : o.scope.Deeds (o.conduct : Conduct μ) fun _ => True where
  plain := ⟨fun stands => ⟨stands, .refl _⟩, fun _ _ along =>
    ⟨{ along.leaves.1 with }, { along.leaves.2 with }⟩⟩
  refers along other hp := ⟨other, along.leaves.1.others other hp⟩
  latched _ _ _ := trivial
  nobody _ _ := trivial
  gone _ := trivial
  asks along _ refers ht q := by
    refine ⟨⟨along.thread, { along.leaves.1 with }, ?_⟩, fun _ _ => trivial⟩
    exact along.leaves.2.trans (World.spares_setTable ht refers.2 _)
  invalidates {w₀ w p _} along other _ _ := by
    refine ⟨along.thread, { along.leaves.1 with others := fun {p' peer} other' hp => ?_ },
      { along.leaves.2.trans (World.spares_latch fun _ hp => along.leaves.1.others other hp) with }⟩
    obtain ⟨before, there, table, -⟩ := World.peer_of_latched hp
    exact table ▸ along.leaves.1.others other' there
  overruns _ _ _ _ _ := trivial
  judges _ _ refers := ⟨fun _ => refers.1, fun _ _ => refers.1⟩
  absent _ other _ _ := other
  planted _ _ _ := trivial
  home _ := trivial
  reader family := family.1
  grown _ := trivial
  stored along may ht ha := by
    refine along.leaves.1.node ht ha fun keys => may.2 ?_
    exact (along.leaves.1.own may.1 ht _).2 ⟨_, ha, keys⟩
  found along family ht found := by
    obtain ⟨stored, rfl⟩ := (along.leaves.1.indexed ht).find?_eq_some_iff.1 found
    exact along.leaves.1.node ht stored family.2
  listed along all ht mem := along.leaves.1.node ht ((along.leaves.1.indexed ht).get?_of_mem_tables mem)
    (along.leaves.1.other_of_mem_tables ht all mem)
  invalid {w₀ w t tree a} along all ht mem _ keys := by
    have other := along.leaves.1.other_of_mem_tables ht all mem
    have stored := (along.leaves.1.indexed ht).get?_of_mem_tables mem
    have isTable : a.role = .table := of_decide_eq_true (List.mem_filter.1 mem).2
    exact other (((along.leaves.1.nodes ht stored other).2.2 isTable).symm ▸ keys)
  -- a new node is one of another table, and lies where the bystander has none
  adds {w₀ w t tree p i k} along family within ht new next := by
    have indexed := along.leaves.1.indexed ht
    refine ⟨fun parent _ => ⟨along.thread, ?_, ?_⟩, fun k' may => ⟨may.1, fun owns => ?_⟩⟩
    · refine along.leaves.1.modifyTree ht (indexed.add next new) (fun {k' b} hb other => ?_)
        fun {k' b} keys => ?_
      · rw [indexed.get?_add next] at hb
        split at hb
        · cases hb
          exact ⟨family.1, rfl, fun isTable => absurd isTable within.ne_table⟩
        · exact along.leaves.1.nodes ht hb other
      · rw [indexed.get?_add next]
        split
        · subst k'
          have free : tree.get? k = none := indexed.arena.get?_nextKey next
          rw [free]
          refine ⟨fun e => ?_, fun e => by cases e⟩
          cases e
          exact absurd keys family.2
        · exact Iff.rfl
    · exact along.leaves.2.trans (World.spares_add ht indexed next
        (along.leaves.1.not_reads family.1))
    · obtain ⟨b, hb, -⟩ := (along.leaves.1.own may.1 ht _).1 owns
      have free : tree.get? k = none := indexed.arena.get?_nextKey next
      cases free.symm.trans hb
  full _ _ _ _ _ _ := trivial
  rows _ _ _ := trivial
  columns _ _ _ := trivial
  rowsOverflow _ _ _ := trivial
  columnsOverflow _ _ _ := trivial
  childrenOverflow _ _ _ _ := trivial
  detaches {w₀ w t k} along other := by
    cases ht : w.trees[t]? with
    | none =>
      rw [World.modifyTree_of_none ht]
      exact along
    | some tree =>
      have indexed := along.leaves.1.indexed ht
      have stays : ∀ {k' a}, o.Keys t a.tableKey →
          ((tree.removeTable k).get? k' = some a ↔ tree.get? k' = some a) := by
        intro k' a keys
        rw [indexed.get?_removeTable, Option.filter_eq_some_iff]
        refine and_iff_left ?_
        have apart : a.identity.tableKey ≠ k := fun same => other (same ▸ keys)
        simpa using apart
      refine ⟨along.thread, ?_, along.leaves.2.trans ?_⟩
      · refine along.leaves.1.modifyTree ht (indexed.removeTable k) (fun ha other => ?_) stays
        exact along.leaves.1.nodes ht (indexed.of_removeTable ha).1 other
      · refine World.spares_modifyTree ht (by simp) fun {k' a} own => ⟨fun ha => ?_, fun ha => ?_⟩
        · exact (indexed.of_removeTable ha).1
        · exact (stays (along.leaves.1.keys_of_reads ht ha own)).2 ha
  attaches _ attachable := attachable.elim
  becomes attachable := attachable.elim
  attachesFull _ attachable := attachable.elim
  spans along _ := by
    split
    · trivial
    · exact along.leaves.1.bridges ‹_›
  spanned _ := trivial
  roots {w₀ w b k} along _ may := by
    refine ⟨along.thread, { along.leaves.1 with bridges := fun {b' bridge} hb => ?_ },
      { along.leaves.2 with }⟩
    obtain ⟨before, hb', tree, root⟩ := World.bridge_of_rooted hb
    have there := along.leaves.1.bridges hb'
    refine ⟨tree.trans there.1, fun k' e => ?_⟩
    rcases root with same | ⟨rfl, new⟩
    · exact there.2 k' (same ▸ e)
    · cases new.symm.trans e
      exact may

/-- A request that is about other tables spares the bystander, whatever comes of it. -/
theorem request {request : Request} (admitted : o.scope.Admits request) :
    request.act.Keeps (o.conduct : Conduct μ) (fun _ => True) fun _ => True :=
  o.deeds.request admitted

end Bystander

/-! ### Attaching tables -/

section Attach

variable {w w' : World μ} {t : TreeId} {table other : TableId} {result : Except Panic Adapter}

/-- Attaching another table spares a table. Nothing is asked of either. -/
theorem Attached.spares (h : Attached t other w result w') (apart : other ≠ table)
    (indexed : ∀ {tree : Tree}, w.trees[t]? = some tree → tree.Indexed) : w.Spares table w' := by
  cases h with
  | absent | found | full => exact .refl w
  | @made tree k ht next =>
    let new : Peer := ⟨other, tree.context, false⟩
    have spared : w.Spares table { w with peers := w.peers ++ [new] } := World.spares_newPeer apart
    refine spared.trans ?_
    let a : Adapter := ⟨k, .table k, none, w.peers.length, t⟩
    have unread : ¬World.Reads { w with peers := w.peers ++ [new] } a table := by
      rintro ⟨peer, hp, same⟩
      have last : (w.peers ++ [new])[w.peers.length]? = some peer := hp
      rw [List.getElem?_concat_length] at last
      cases last
      exact apart same
    have added := World.spares_add (w := { w with peers := w.peers ++ [new] }) (a := a) ht (indexed ht)
      next unread
    exact { added with }

/-- So does attaching it through a bridge. -/
theorem Bridge.Attached.spares {b : BridgeId} (h : Bridge.Attached b other w result w')
    (apart : other ≠ table)
    (indexed : ∀ {t : TreeId} {tree : Tree}, w.trees[t]? = some tree → tree.Indexed) :
    w.Spares table w' := by
  cases h with
  | absent => exact .refl w
  | attached hb attached => exact attached.spares apart indexed
  | root hb attached => exact { attached.spares apart indexed with }

end Attach

/-! ### Tables that stay -/

/-- A table that stays has a node in a tree. -/
structure World.Hosts (p : PeerId) (table : TableId) (c : ContextId) (t : TreeId) (k : NodeKey)
    (w : World μ) : Prop where
  /-- The table stays. -/
  lives : w.Lives p table c
  /-- Nodes and identities agree. -/
  indexed : ∀ {t : TreeId} {tree : Tree}, w.trees[t]? = some tree → tree.Indexed
  /-- The nodes of tables stand for themselves. -/
  tables : ∀ {t : TreeId} {tree : Tree} {k : NodeKey} {a : Adapter}, w.trees[t]? = some tree →
    tree.get? k = some a → a.role = .table → a.identity = .table k
  /-- The node of the table is read through the peer. -/
  node : ∃ a, w.Stores t k a ∧ a.peer = p ∧ a.tableKey = k

/-- A table that stays keeps its nodes, and they keep their keys. -/
def Conduct.hosting (p : PeerId) (table : TableId) (c : ContextId) (t : TreeId) (k : NodeKey) :
    Conduct μ where
  Finds := World.Hosts p table c t k
  Leaves w₀ w := w.Hosts p table c t k ∧
    ∀ {k' a}, a.tableKey = k → w₀.Stores t k' a → w.Stores t k' a

/-- Anything may come up, but the table may not be taken out. -/
def Scope.hosting (p : PeerId) (table : TableId) (c : ContextId) (t : TreeId) (k : NodeKey) :
    Scope :=
  { sparing p table c with Detachable := fun t' k' => ¬(t' = t ∧ k' = k) }

section Hosting

variable {p : PeerId} {table : TableId} {c : ContextId} {t t' : TreeId} {k : NodeKey} {tree : Tree}
  {w w₀ : World μ}

/-- A tree comes to have other nodes, but has those of the table. -/
theorem Conduct.Along.modifyTree {f : Tree → Tree}
    (along : (hosting p table c t k : Conduct μ).Along w₀ w) (ht : w.trees[t']? = some tree)
    (indexed : (f tree).Indexed)
    (tables : ∀ {k a}, (f tree).get? k = some a → a.role = .table → a.identity = .table k)
    (keeps : ∀ {k' a}, t' = t → a.tableKey = k → tree.get? k' = some a →
      (f tree).get? k' = some a) :
    (hosting p table c t k : Conduct μ).Along w₀ (w.modifyTree t' f) := by
  have stays : ∀ {k' a}, a.tableKey = k → w.Stores t k' a → (w.modifyTree t' f).Stores t k' a := by
    rintro k' a own ⟨tree', ht', ha⟩
    unfold World.Stores
    rw [World.getElem?_modifyTree ht]
    by_cases here : t = t'
    · subst here
      cases ht.symm.trans ht'
      exact ⟨_, if_pos rfl, keeps rfl own ha⟩
    · exact ⟨_, by rw [if_neg here, ht'], ha⟩
  obtain ⟨hosts, kept⟩ := along.leaves
  obtain ⟨a, there, peer, own⟩ := hosts.node
  refine ⟨along.thread, ⟨⟨hosts.lives.unlatched, hosts.lives.stays⟩, fun {t'' tree''} ht'' => ?_,
    fun {t'' tree'' k'' b} ht'' => ?_, a, stays own there, peer, own⟩,
    fun own before => stays own (kept own before)⟩
  all_goals
    rw [World.getElem?_modifyTree ht] at ht''
    split at ht''
  · cases ht''
    exact indexed
  · exact hosts.indexed ht''
  · cases ht''
    exact tables
  · exact hosts.tables ht''

/-- Nothing is done to trees. -/
theorem Conduct.Along.of_trees {w' : World μ}
    (along : (hosting p table c t k : Conduct μ).Along w₀ w) (thread : w'.thread = w.thread)
    (trees : w'.trees = w.trees) (lives : w'.Lives p table c) :
    (hosting p table c t k : Conduct μ).Along w₀ w' := by
  obtain ⟨hosts, kept⟩ := along.leaves
  have same : ∀ {k' a}, w'.Stores t k' a ↔ w.Stores t k' a := fun {k' a} => by
    unfold World.Stores
    rw [trees]
  obtain ⟨a, there, own⟩ := hosts.node
  exact ⟨thread.trans along.thread,
    ⟨lives, trees ▸ hosts.indexed, trees ▸ hosts.tables, a, same.2 there, own⟩,
    fun own before => same.2 (kept own before)⟩

theorem Scope.hosting_steps :
    (hosting p table c t k).Steps (Conduct.hosting p table c t k : Conduct μ) where
  plain := by
    refine ⟨fun hosts => ⟨hosts, fun _ => id⟩, fun {w₀ w e} _ _ along => ?_⟩
    have lives := along.leaves.1.lives
    have told : (Conduct.hosting p table c t k).Along w₀ (w.tell e) :=
      along.of_trees rfl rfl ⟨lives.unlatched, lives.stays⟩
    exact told.leaves
  refers along _ hp same := along.leaves.1.lives.unlatched.refers hp same
  latched along hp latched := along.leaves.1.lives.unlatched.ne_of_latched hp latched
  nobody along hp := along.leaves.1.lives.unlatched.ne_of_absent hp
  gone other := other
  asks along _ _ ht q :=
    ⟨along.of_trees rfl rfl (along.leaves.1.lives.ask ht _ _ q), fun _ _ => trivial⟩
  invalidates along other _ _ := along.of_trees rfl rfl
    ⟨along.leaves.1.lives.unlatched.of_modify other _, along.leaves.1.lives.stays⟩
  overruns _ _ _ _ _ := trivial
  judges along here refers := by
    have judges := sparing_steps.judges (μ := μ) ⟨along.thread, along.leaves.1.lives⟩ here refers
    exact ⟨judges.dropped, judges.disposed⟩
  absent along hp gone :=
    sparing_steps.absent (μ := μ) ⟨along.thread, along.leaves.1.lives⟩ hp gone
  invalid {w₀ w t' tree a} along ht mem other := by
    rintro ⟨rfl, rfl⟩
    obtain ⟨b, ⟨tree', ht', hb⟩, peer, -⟩ := along.leaves.1.node
    cases ht.symm.trans ht'
    have stored := (along.leaves.1.indexed ht).get?_of_mem_tables mem
    cases stored.symm.trans hb
    exact other peer
  adds {w₀ w t' tree a} along ht next new := by
    have indexed := along.leaves.1.indexed ht
    have free : tree.find? a.identity = none := by
      rcases new with ⟨-, free⟩ | own
      · exact free
      · rw [indexed.find?_eq_none_iff]
        intro k' b hb same
        have isTable : b.role = .table := by
          rw [Adapter.role, same, own]
          rfl
        have stands := along.leaves.1.tables ht hb isTable
        rw [same, own] at stands
        cases stands
        cases hb.symm.trans (indexed.arena.get?_nextKey next)
    refine along.modifyTree ht (indexed.add next free) (fun {k' b} hb isTable => ?_)
      fun _ _ => indexed.get?_add_of_some next
    rw [indexed.get?_add next] at hb
    split at hb
    · cases hb
      subst k'
      exact new.resolve_left fun other => other.1 isTable
    · exact along.leaves.1.tables ht hb isTable
  detaches {w₀ w t' k'} along other := by
    cases ht : w.trees[t']? with
    | none =>
      rw [World.modifyTree_of_none ht]
      exact along
    | some tree =>
      have indexed := along.leaves.1.indexed ht
      refine along.modifyTree ht (indexed.removeTable k')
        (fun hb => along.leaves.1.tables ht (indexed.of_removeTable hb).1) fun {k'' a} here own ha => ?_
      have apart : a.identity.tableKey ≠ k' := fun same => other ⟨here, same.symm.trans own⟩
      rw [indexed.get?_removeTable, ha, Option.filter_some, if_pos (by simpa using apart)]
  peers along new _ := along.of_trees rfl rfl
    ⟨along.leaves.1.lives.unlatched.of_append new, along.leaves.1.lives.stays⟩
  bridges along _ := along.of_trees rfl rfl
    ⟨along.leaves.1.lives.unlatched, along.leaves.1.lives.stays⟩

/-- Whatever is requested, a table that stays keeps its nodes, unless it is itself to be taken out. -/
theorem hosting_request {request : Request} (kind : request.OfTable)
    (other : request ≠ .detach t k) :
    request.act.Keeps (Conduct.hosting p table c t k : Conduct μ) (fun _ => True) fun _ => True := by
  have isOpen : (Scope.hosting p table c t k).Open := { Scope.open_any with }
  refine (isOpen.deeds Scope.hosting_steps).request (isOpen.admits kind ?_)
  rintro t' k' rfl ⟨rfl, rfl⟩
  exact other rfl

end Hosting

end TableAccess
