import TableAccess.Proofs.Attaching
import TableAccess.Proofs.ScopedRequests

/-!
# Tables under the care of one context

A table is asked in one place only: where a peer reads it, in a hand-off to its context. So whatever a
request is about, and whoever makes it, the tables of a tree are asked on the thread of the context of
the tree. On any other thread a request leaves all tables as they are.

## The model

* `Table.AskedOn`, `World.AsksOn` — all that was asked was asked on one thread.
* `World.Tells` — what was told, as far as panics go.
* `Manners` — what tables are, what they answer and what they panic with when their context asks.
* `Ward` — some tables of one tree; `Ward.Stands` — all of them are in the care of its context.
* `Ward.request`, `Ward.reading` — a request, and a reading, about the tables of a ward.
-/

namespace TableAccess

variable {μ α : Type}

/-! ### Questions that are asked on one thread -/

namespace Table

variable {thread : Thread} {table later : Table}

/-- What a table may have become by questions that were asked on one thread. -/
inductive AskedOn (thread : Thread) (table : Table) : Table → Prop where
  | new : AskedOn thread table table
  | ask {later : Table} (before : AskedOn thread table later) (checksOn : Bool) (q : Question) :
    AskedOn thread table (later.ask checksOn thread q).2

/-- A table that remembers what it is asked remembers that it was asked there. -/
theorem AskedOn.remembered {r : Responder} (h : (Table.responder r).AskedOn thread later) :
    ∃ calls, later = .responder { r with past := calls ++ r.past } ∧
      ∀ call ∈ calls, call.thread = thread := by
  induction h with
  | new => exact ⟨[], rfl, by simp⟩
  | ask _ checksOn q ih =>
    obtain ⟨calls, rfl, there⟩ := ih
    exact ⟨⟨thread, q⟩ :: calls, rfl, by simpa using there⟩

end Table

namespace World

variable {w₀ w w' : World μ} {thread : Thread} {T : Panic → Prop}

/-- All that was done to tables was to ask them on one thread, by that thread itself. -/
structure AsksOn (thread : Thread) (w w' : World μ) : Prop where
  /-- They were asked there. -/
  asked : ∀ t, Option.Rel (Table.AskedOn thread) (w.table? t) (w'.table? t)
  /-- Any other thread leaves them as they are. -/
  elsewhere : w.thread ≠ thread → w'.tables = w.tables

namespace AsksOn

theorem refl (w : World μ) : w.AsksOn thread w := by
  refine ⟨fun t => ?_, fun _ => rfl⟩
  cases w.table? t with
  | none => exact .none
  | some table => exact .some .new

/-- Nothing more was done to tables. -/
theorem of_tables (h : w₀.AsksOn thread w) (same : w'.tables = w.tables) : w₀.AsksOn thread w' := by
  refine ⟨fun t => ?_, fun apart => same.trans (h.elsewhere apart)⟩
  unfold table?
  rw [same]
  exact h.asked t

/-- One more question was asked. -/
theorem ask {t : TableId} {table : Table} (h : w₀.AsksOn thread w) (here : w₀.thread = thread)
    (ht : w.table? t = some table) (checksOn : Bool) (q : Question) :
    w₀.AsksOn thread (w.setTable t (some (table.ask checksOn thread q).2)) := by
  refine ⟨fun t' => ?_, fun apart => absurd here apart⟩
  rw [table?_setTable ht]
  have asked := h.asked t'
  split
  · subst t'
    rw [ht] at asked
    generalize w₀.table? t = before at asked ⊢
    cases asked with
    | some asked => exact .some (asked.ask checksOn q)
  · exact asked

end AsksOn

/-- Nothing was told of a panic unless `T` holds of some. -/
def Tells (T : Panic → Prop) (w w' : World μ) : Prop :=
  ∃ told, w'.log = told ++ w.log ∧ ∀ e ∈ told, e.2.OfPanic → ∃ p, T p

namespace Tells

theorem refl (w : World μ) : w.Tells T w := ⟨[], rfl, by simp⟩

theorem tell (h : w₀.Tells T w) {e : Event} (panics : e.OfPanic → ∃ p, T p) :
    w₀.Tells T (w.tell e) := by
  obtain ⟨told, log, others⟩ := h
  refine ⟨(w.thread, e) :: told, by simp [World.tell, log], fun e' mem => ?_⟩
  rcases List.mem_cons.1 mem with rfl | mem
  · exact panics
  · exact others e' mem

end Tells

end World

/-! ### Tables in the care of a context -/

/-- What some tables are, what they answer and what they may panic with, whenever the thread of a
context asks them. -/
structure Manners (c : ContextId) where
  /-- Such are the tables. -/
  Tables : Table → Prop
  /-- They answer so, -/
  Answers : (q : Question) → q.Answer → Prop
  /-- or panic with this. -/
  Panics : Panic → Prop
  /-- A table that was asked is one of them again. -/
  asked : ∀ {table : Table}, Tables table → ∀ (checksOn : Bool) (q : Question),
    Tables (table.ask checksOn (.toolkit c) q).2
  answered : ∀ {table : Table}, Tables table → ∀ (checksOn : Bool) (q : Question),
    Allowed Panics (Answers q) (table.ask checksOn (.toolkit c) q).1

/-- Nothing is known of the tables. -/
def Manners.any (c : ContextId) : Manners c where
  Tables _ := True
  Answers _ _ := True
  Panics _ := True
  asked _ _ _ := trivial
  answered _ checksOn q := by
    rename_i table _
    cases (table.ask checksOn (.toolkit c) q).1 <;> trivial

/-- Whatever is found, tables are asked on the thread of one context only, and panics are told of only
if they may happen. -/
def Conduct.asking (Finds : World μ → Prop) (c : ContextId) (T : Panic → Prop) : Conduct μ where
  Finds := Finds
  Leaves w₀ w := w₀.AsksOn (.toolkit c) w ∧ w₀.Tells T w

/-- Some tables of one tree. -/
structure Ward where
  /-- The tree. -/
  tree : TreeId
  /-- Its context. -/
  context : ContextId
  /-- What the tables are. -/
  manners : Manners context
  /-- The tables. -/
  Own : TableId → Prop
  /-- The peers of their nodes. -/
  Peers : PeerId → Prop
  /-- The table keys of their nodes. -/
  Keys : NodeKey → Prop
  /-- Bridges over the tree. -/
  Bridges : BridgeId → Prop

/-- What a request panics with, if at all: the clock cannot tell how long to wait, there is no room for
a node or for a list, or what is asked is not there. -/
def callerPanics : List Panic := [deadlineOverflow, treeFull, Room.overflow, noTree, noBridge]

namespace Ward

variable (W : Ward)

/-- The tables of a ward are in the care of its context. -/
structure Stands (w : World μ) : Prop where
  /-- Their peers read them on its thread. -/
  peers : ∀ {p : PeerId} {peer : Peer}, W.Peers p → w.peers[p]? = some peer →
    W.Own peer.table ∧ peer.context = W.context
  /-- They are as they should be. -/
  tables : ∀ {t : TableId} {table : Table}, W.Own t → w.table? t = some table →
    W.manners.Tables table
  indexed : ∀ {tree : Tree}, w.trees[W.tree]? = some tree → tree.Indexed
  /-- Their nodes have such peers. -/
  nodes : ∀ {tree : Tree} {k : NodeKey} {a : Adapter}, w.trees[W.tree]? = some tree →
    tree.get? k = some a → W.Keys a.tableKey →
      W.Peers a.peer ∧ a.tree = W.tree ∧ (a.role = .table → a.tableKey = a.key)
  bridges : ∀ {b : BridgeId} {bridge : Bridge}, W.Bridges b → w.bridges[b]? = some bridge →
    bridge.tree = W.tree

/-- The tables are asked by their context, and stay in its care. -/
def conduct : Conduct μ where
  Finds := W.Stands
  Leaves w₀ w := W.Stands w ∧ w₀.AsksOn (.toolkit W.context) w ∧ w₀.Tells W.manners.Panics w

/-- The tables of the ward may come up. The whole tree may be gone through if all its tables are of
the ward. -/
def scope : Scope :=
  { Scope.any with
    Peers := W.Peers
    Family := fun t k p => t = W.tree ∧ W.Peers p ∧ W.Keys k
    Refers := fun _ t c => W.Own t ∧ c = W.context
    Answers := fun _ => W.manners.Answers
    Reaches := fun t _ => t = W.tree ∧ ∀ k, W.Keys k
    Attachable := fun _ _ => False
    Spans := W.Bridges
    Over := fun _ t => t = W.tree }

variable {W} {w w₀ : World μ} {t : TreeId} {tree : Tree} {k : NodeKey} {a : Adapter}

/-- A node of the ward may come up. -/
theorem node (peers : W.Peers a.peer) (keys : W.Keys a.tableKey) (here : a.tree = W.tree)
    (own : a.role = .table → a.tableKey = a.key) : W.scope.Node W.tree a := by
  refine ⟨⟨here, peers, keys⟩, fun isTable => ⟨here, peers, own isTable ▸ keys⟩, ?_, id, ?_⟩
  · unfold Adapter.role
    cases a.identity with
    | table => exact .inl rfl
    | row => exact .inr trivial
    | column => exact .inr trivial
    | cell => exact .inr ⟨trivial, trivial⟩
  · intro k
    rw [here]

namespace Stands

variable (h : W.Stands w)

include h

theorem node (ht : w.trees[W.tree]? = some tree) (ha : tree.get? k = some a)
    (keys : W.Keys a.tableKey) : W.scope.Node W.tree a := by
  obtain ⟨peers, here, own⟩ := h.nodes ht ha keys
  exact Ward.node peers keys here own

/-- A tree comes to have other nodes. -/
theorem modifyTree (ht : w.trees[t]? = some tree) {f : Tree → Tree}
    (indexed : tree.Indexed → (f tree).Indexed)
    (nodes : t = W.tree → tree.Indexed → ∀ {k a}, (f tree).get? k = some a → W.Keys a.tableKey →
      tree.get? k = some a ∨
        W.Peers a.peer ∧ a.tree = W.tree ∧ (a.role = .table → a.tableKey = a.key)) :
    W.Stands (w.modifyTree t f) where
  peers := h.peers
  tables := h.tables
  indexed {tree'} ht' := by
    rw [World.getElem?_modifyTree ht] at ht'
    split at ht'
    · subst t
      cases ht'
      exact indexed (h.indexed ht)
    · exact h.indexed ht'
  nodes {tree' k a} ht' ha keys := by
    rw [World.getElem?_modifyTree ht] at ht'
    split at ht'
    · subst t
      cases ht'
      rcases nodes rfl (h.indexed ht) ha keys with old | new
      · exact h.nodes ht old keys
      · exact new
    · exact h.nodes ht' ha keys
  bridges := h.bridges

/-- A table was asked by the thread of the context. -/
theorem ask {t : TableId} {table : Table} (own : W.Own t) (ht : w.table? t = some table)
    (checksOn : Bool) (q : Question) :
    W.Stands (w.setTable t (some (table.ask checksOn (.toolkit W.context) q).2)) :=
  { h with
    tables := fun {t' table'} own' ht' => by
      rw [World.table?_setTable ht] at ht'
      split at ht'
      · cases ht'
        exact W.manners.asked (h.tables own ht) checksOn q
      · exact h.tables own' ht' }

theorem latch (p : PeerId) :
    W.Stands { w with peers := w.peers.modify p ({ · with invalidated := true }) } :=
  { h with
    peers := fun {p' peer} may hp => by
      obtain ⟨before, there, table, context⟩ := World.peer_of_latched hp
      rw [table, context]
      exact h.peers may there }

end Stands

/-- Nothing was done to tables, and nothing told. -/
theorem along_of_same (along : (W.conduct : Conduct μ).Along w₀ w) {w' : World μ}
    (stands : W.Stands w') (thread : w'.thread = w.thread) (tables : w'.tables = w.tables)
    (log : w'.log = w.log) : (W.conduct : Conduct μ).Along w₀ w' := by
  refine ⟨thread.trans along.thread, stands, along.leaves.2.1.of_tables tables, ?_⟩
  obtain ⟨told, before, others⟩ := along.leaves.2.2
  exact ⟨told, log.trans before, others⟩

theorem deeds (W : Ward) :
    W.scope.Deeds (W.conduct : Conduct μ) (· ∈ callerPanics) W.manners.Panics where
  plain := ⟨fun stands => ⟨stands, .refl _, .refl _⟩, fun panics _ along =>
    ⟨{ along.leaves.1 with }, along.leaves.2.1.of_tables rfl, along.leaves.2.2.tell panics⟩⟩
  refers along may hp := along.leaves.1.peers may hp
  latched _ _ _ := trivial
  nobody _ _ := trivial
  gone _ := trivial
  asks {w₀ w p t c table} along here refers ht q := by
    obtain ⟨own, rfl⟩ := refers
    have there : w₀.thread = .toolkit W.context := along.thread.symm.trans here
    rw [here]
    refine ⟨⟨along.thread, along.leaves.1.ask own ht w.checksOn q,
      along.leaves.2.1.ask there ht w.checksOn q, along.leaves.2.2⟩, fun answer e => ?_⟩
    have allowed := W.manners.answered (along.leaves.1.tables own ht) w.checksOn q
    rwa [e] at allowed
  fails {w₀ w p t c table} along here refers ht q panic e := by
    obtain ⟨own, rfl⟩ := refers
    have allowed := W.manners.answered (along.leaves.1.tables own ht) w.checksOn q
    rw [here] at e
    rwa [e] at allowed
  invalidates {w₀ w p _} along _ _ _ := by
    have latched := along_of_same along (along.leaves.1.latch p) rfl rfl rfl
    exact ⟨latched.thread, { latched.leaves.1 with }, latched.leaves.2.1.of_tables rfl,
      latched.leaves.2.2.tell nofun⟩
  overruns _ _ _ _ _ := by simp [callerPanics]
  judges _ _ _ := ⟨fun _ => trivial, fun _ _ => trivial⟩
  absent _ _ _ _ := trivial
  planted _ _ _ := by simp [callerPanics]
  home _ := trivial
  reader family := family.2.1
  grown _ := trivial
  stored along may ht ha := by
    obtain ⟨rfl, all⟩ := may
    exact along.leaves.1.node ht ha (all _)
  found along family ht found := by
    obtain ⟨rfl, -, keys⟩ := family
    obtain ⟨stored, rfl⟩ := (along.leaves.1.indexed ht).find?_eq_some_iff.1 found
    exact along.leaves.1.node ht stored keys
  listed {w₀ w t tree a} along all ht mem := by
    obtain ⟨rfl, keys⟩ := all a.key
    have stored := (along.leaves.1.indexed ht).get?_of_mem_tables mem
    exact along.leaves.1.node ht stored (keys _)
  invalid _ _ _ _ _ := trivial
  adds {w₀ w t tree p i k} along family within ht new next := by
    obtain ⟨rfl, peers, keys⟩ := family
    have indexed := along.leaves.1.indexed ht
    refine ⟨fun parent _ => ?_, fun _ => id⟩
    refine along_of_same along (along.leaves.1.modifyTree ht (fun indexed => indexed.add next new)
      fun _ indexed {k' b} hb keys' => ?_) rfl rfl rfl
    rw [indexed.get?_add next] at hb
    split at hb
    · cases hb
      exact .inr ⟨peers, rfl, fun isTable => absurd isTable within.ne_table⟩
    · exact .inl hb
  full _ _ _ _ _ _ := by simp [callerPanics]
  rows _ _ _ := trivial
  columns _ _ _ := trivial
  rowsOverflow _ _ _ := by simp [callerPanics]
  columnsOverflow _ _ _ := by simp [callerPanics]
  childrenOverflow _ _ _ _ := by simp [callerPanics]
  detaches {w₀ w t k} along _ := by
    cases ht : w.trees[t]? with
    | none =>
      rw [World.modifyTree_of_none ht]
      exact along
    | some tree =>
      refine along_of_same along (along.leaves.1.modifyTree ht (fun indexed => indexed.removeTable k)
        fun _ indexed {k' b} hb _ => .inl (indexed.of_removeTable hb).1) rfl rfl rfl
  attaches _ attachable := attachable.elim
  becomes attachable := attachable.elim
  attachesFull _ attachable := attachable.elim
  spans along spans := by
    split
    · simp [callerPanics]
    · exact ⟨along.leaves.1.bridges spans ‹_›, fun _ _ => trivial⟩
  spanned _ := trivial
  roots {w₀ w b k} along _ _ := by
    refine along_of_same along { along.leaves.1 with bridges := fun {b' bridge} spans hb => ?_ } rfl rfl rfl
    obtain ⟨before, there, tree, -⟩ := World.bridge_of_rooted hb
    exact tree.trans (along.leaves.1.bridges spans there)

section Requests

variable {Finds : World μ → Prop} {p : PeerId} {read : Inquiry (Except Unavailable α)}

/-- Whoever finds all tables of the ward in the care of the context asks tables on its thread only. -/
theorem asking (finds : ∀ {w : World μ}, Finds w → W.Stands w) {act : Act μ α} {P : Panic → Prop}
    {Q : α → Prop} (stands : W.Stands w) (keeps : act.Keeps W.conduct P Q) :
    act.KeepsFrom (.asking Finds W.context W.manners.Panics) w w P Q :=
  (keeps.keeps ⟨rfl, stands, .refl w, .refl w⟩).weaken finds fun leaves => leaves.2

/-- A request that is about the ward asks tables on the thread of its context only. -/
theorem request (finds : ∀ {w : World μ}, Finds w → W.Stands w) (stands : W.Stands w)
    {request : Request} (admitted : W.scope.Admits request) :
    request.act.KeepsFrom (.asking Finds W.context W.manners.Panics) w w (· ∈ callerPanics)
      fun _ => True :=
  W.asking finds stands (W.deeds.request admitted)

/-- So does a reading. It tells of a panic only if one may happen. -/
theorem reading (finds : ∀ {w : World μ}, Finds w → W.Stands w) (stands : W.Stands w)
    (may : W.Peers p) (honest : Reading.Honest read)
    (steady : Reading.Steady W.manners.Answers W.manners.Panics read) :
    (Peer.query p read).KeepsFrom (.asking Finds W.context W.manners.Panics) w w (· ∈ callerPanics)
      fun r => r = .error .handOffPanicked → ∃ panic, W.manners.Panics panic := by
  refine W.asking finds stands ((W.deeds.query may (Reading.reports_of_honest honest) steady).mono ?_)
  rintro r told rfl
  exact told.2 rfl

/-- So does a question for validity. -/
theorem validity (finds : ∀ {w : World μ}, Finds w → W.Stands w) (stands : W.Stands w)
    (may : W.Peers p) :
    (Peer.isValid p).KeepsFrom (.asking Finds W.context W.manners.Panics) w w (· ∈ callerPanics)
      fun _ => True :=
  W.asking finds stands (W.deeds.isValid may).forget

end Requests

end Ward

/-! ### Attaching tables -/

section Attaching

variable {Finds : World μ → Prop} {c : ContextId} {T : Panic → Prop} {w w' : World μ} {t : TreeId}
  {b : BridgeId} {table : TableId} {result : Except Panic Adapter}

theorem Attached.tells (h : Attached t table w result w') : w.Tells T w' := by
  cases h with
  | made => exact ⟨[_], rfl, fun e mem => by obtain rfl := List.mem_singleton.1 mem; nofun⟩
  | _ => exact .refl _

theorem Attached.panics {p : Panic} (h : Attached t table w (.error p) w') : p ∈ callerPanics := by
  cases h <;> simp [callerPanics]

theorem Bridge.Attached.tells (h : Bridge.Attached b table w result w') : w.Tells T w' := by
  cases h with
  | absent => exact .refl _
  | attached _ attached => exact attached.tells
  | root _ attached =>
    obtain ⟨told, log, others⟩ := attached.tells (T := T).tell (e := .becameRoot _) nofun
    exact ⟨told, log, others⟩

theorem Bridge.Attached.panics {p : Panic} (h : Bridge.Attached b table w (.error p) w') :
    p ∈ callerPanics := by
  cases h with
  | absent => simp [callerPanics]
  | attached _ attached => exact attached.panics

end Attaching

end TableAccess
