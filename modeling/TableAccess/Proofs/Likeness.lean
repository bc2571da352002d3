import Mathlib.Data.List.Forall2
import TableAccess.Proofs.Nodes
import TableAccess.Proofs.Scopes

/-!
# Worlds that look alike

Two worlds may have much apart: other tables, the nodes of these, what was told, what waits where. As
long as they agree in a table, in its peer and its nodes, and in how its context takes tasks, whoever
asks a node of the table gets the same answers in both. Only a node that there was in neither of them
may get another key.

## The model

* `Viewpoint` — the table that is looked at, and the nodes that it had; `Viewpoint.Same` — one node in
  two worlds.
* `Viewpoint.Twins` — two worlds look alike from there.
* `Act.Alike` — two acts go alike in such worlds, whatever becomes of the worlds meanwhile, as long as
  they look alike.
* `Alike.bind`, `Alike.each`, `Alike.query`, `Alike.obtain`, … — one rule for each way to put acts
  together, and for each thing that nodes do.
-/

namespace TableAccess

variable {μ α β γ : Type}

/-! ### Two worlds -/

/-- A context takes tasks at some instant as another one does at another, and the clock can tell until
when they are to be waited for. -/
structure Context.Like (now now' : Instant) (c c' : Context Ticket) : Prop where
  timeout : c.timeout = c'.timeout
  /-- The clock can tell it. -/
  fits : c.timeout.FitsClock now ∧ c'.timeout.FitsClock now'
  running : c.running = c'.running
  capacity : c.capacity = c'.capacity
  /-- So much waits. -/
  waits : c.queue.length = c'.queue.length
  /-- Where the queue holds none, both threads wait for a message, or none does. -/
  waiting : c.capacity = 0 → c.isWaiting = c'.isWaiting

/-- A table with a node in a tree. -/
structure Viewpoint where
  /-- The tree. -/
  tree : TreeId
  /-- The key of the table's node. -/
  key : NodeKey
  /-- The peer of the table's nodes. -/
  peer : PeerId
  /-- The table. -/
  table : TableId
  /-- The nodes that it had. -/
  Known : Adapter → Prop

namespace Viewpoint

/-- A node, and what it is in the other world: itself, or it stands for the same and is new in both. -/
def Same (v : Viewpoint) (a b : Adapter) : Prop :=
  a = b ∨ a.identity = b.identity ∧ ¬v.Known a ∧ ¬v.Known b

/-- A node belongs to the table. -/
structure Has (v : Viewpoint) (a : Adapter) : Prop where
  tree : a.tree = v.tree
  peer : a.peer = v.peer
  own : a.tableKey = v.key
  /-- The table's node stands for itself. -/
  root : ∀ k, a.identity = .table k → a.key = v.key
  /-- The parent of a node was there. -/
  parent : ∀ k, a.parent = some k → ∃ b, v.Known b ∧ b.key = k

/-- An answer, and what it is in the other world: the same, but for nodes that are new in both. -/
def Answers (v : Viewpoint) (x y : AttributeValue) : Prop :=
  x = y ∨ ∃ nodes nodes', x = .nodes (Adapter.ids nodes) ∧ y = .nodes (Adapter.ids nodes') ∧
    List.Forall₂ v.Same nodes nodes'

/-- Two trees agree in the nodes of the table. -/
structure Shares (v : Viewpoint) (tree tree' : Tree) : Prop where
  /-- Both are held by a bridge, or none. -/
  alive : tree.alive = tree'.alive
  indexed : tree.Indexed
  indexed' : tree'.Indexed
  /-- A part of the table has a node in both, or in none. -/
  nodes : ∀ {i : Identity}, i.tableKey = v.key → Option.Rel v.Same (tree.find? i) (tree'.find? i)
  /-- The nodes that the table had are there. -/
  known : ∀ {a : Adapter}, v.Known a → tree.get? a.key = some a ∧ tree'.get? a.key = some a

/-- Two worlds look alike. -/
structure Twins (v : Viewpoint) (w w' : World μ) : Prop where
  /-- The same thread goes on. -/
  thread : w.thread = w'.thread
  /-- Affinity is checked in both, or in none. -/
  checks : w.checksOn = w'.checksOn
  /-- The table is the same, -/
  content : w.table? v.table = w'.table? v.table
  /-- its peer is, -/
  peer : w.peers[v.peer]? = w'.peers[v.peer]?
  /-- and refers to it. -/
  refers : ∀ {peer : Peer}, w.peers[v.peer]? = some peer → peer.table = v.table
  /-- Contexts take tasks alike. -/
  contexts : ∀ c : ContextId,
    Option.Rel (Context.Like w.clock w'.clock) w.contexts[c]? w'.contexts[c]?
  /-- The trees agree in the nodes of the table. -/
  trees : Option.Rel v.Shares w.trees[v.tree]? w'.trees[v.tree]?

variable {v : Viewpoint} {w w' : World μ} {a b : Adapter} {i : Identity}

theorem Same.refl (a : Adapter) : v.Same a a := .inl rfl

namespace Twins

theorem congr {u u' : World μ} (h : v.Twins w w') (thread : u.thread = w.thread ∧ u'.thread = w'.thread)
    (checks : u.checksOn = w.checksOn ∧ u'.checksOn = w'.checksOn)
    (tables : u.tables = w.tables ∧ u'.tables = w'.tables)
    (peers : u.peers = w.peers ∧ u'.peers = w'.peers)
    (contexts : ∀ c : ContextId,
      Option.Rel (Context.Like u.clock u'.clock) u.contexts[c]? u'.contexts[c]?)
    (trees : u.trees = w.trees ∧ u'.trees = w'.trees) : v.Twins u u' where
  thread := by rw [thread.1, thread.2, h.thread]
  checks := by rw [checks.1, checks.2, h.checks]
  content := by
    unfold World.table?
    rw [tables.1, tables.2]
    exact h.content
  peer := by rw [peers.1, peers.2, h.peer]
  refers := by
    rw [peers.1]
    exact h.refers
  contexts := contexts
  trees := by
    rw [trees.1, trees.2]
    exact h.trees

theorem tell (h : v.Twins w w') (e e' : Event) : v.Twins (w.tell e) (w'.tell e') :=
  h.congr ⟨rfl, rfl⟩ ⟨rfl, rfl⟩ ⟨rfl, rfl⟩ ⟨rfl, rfl⟩ h.contexts ⟨rfl, rfl⟩

end Twins

end Viewpoint

/-! ### Two acts -/

namespace Progress

/-- How far two acts have come, one in each of two worlds that `S` relates, is alike: they are over, with
values that `V` relates or with panics; or both have handed a task to the same context, which does
the same and leaves such worlds, and go on alike whatever comes of it. Where a tree takes no more nodes
nothing is said. -/
inductive Alike (S : World μ → World μ → Prop) (V : α → α → Prop) :
    Progress μ α → Progress μ α → Prop where
  /-- Both have a value. -/
  | value {a a' : α} {w w' : World μ} (holds : V a a') (worlds : S w w') :
    Alike S V (.done (.ok a) w) (.done (.ok a') w')
  /-- Both have panicked. -/
  | panic {p p' : Panic} {w w' : World μ} (worlds : S w w') :
    Alike S V (.done (.error p) w) (.done (.error p') w')
  /-- The first found no room. -/
  | full {w : World μ} (other : Progress μ α) : Alike S V (.done (.error treeFull) w) other
  /-- The second found no room. -/
  | full' {w' : World μ} (one : Progress μ α) : Alike S V one (.done (.error treeFull) w')
  /-- Both have handed a task over. -/
  | calling {β : Type} {c : ContextId} {k k' : Ticket} {bound : Duration}
      {task task' : World μ → Progress μ β} {w w' : World μ}
      {next next' : Option (Except Panic β) → World μ → Progress μ α} (worlds : S w w')
      (tasks : ∀ {s s' : World μ}, S s s' → s.thread = .toolkit c →
        ∃ result t t', task s = .done result t ∧ task' s' = .done result t' ∧ S t t')
      (goesOn : ∀ (answer : Option (Except Panic β)) {s s' : World μ}, S s s' →
        Alike S V (next answer s) (next' answer s')) :
    Alike S V (.calling c k bound task w next) (.calling c k' bound task' w' next')

variable {S : World μ → World μ → Prop} {V : α → α → Prop} {V' : β → β → Prop}

theorem Alike.bind {p p' : Progress μ α} {f f' : α → Act μ β} (h : p.Alike S V p')
    (rest : ∀ {a a' w w'}, V a a' → S w w' → (f a w).Alike S V' (f' a' w')) :
    (p.bind f).Alike S V' (p'.bind f') := by
  induction h with
  | value holds worlds => exact rest holds worlds
  | panic worlds => exact .panic worlds
  | full other => exact .full _
  | full' one => exact .full' _
  | calling worlds tasks _ ih => exact .calling worlds tasks ih

end Progress

/-- Two acts go alike in worlds that look alike. -/
structure Act.Alike (v : Viewpoint) (V : α → α → Prop) (act act' : Act μ α) : Prop where
  /-- From any two of them on. -/
  goes : ∀ {w w' : World μ}, v.Twins w w' → (act w).Alike v.Twins V (act' w')

/-- One act goes alike in worlds that look alike. -/
def Act.Steady (v : Viewpoint) (V : α → α → Prop) (act : Act μ α) : Prop := act.Alike v V act

namespace Act.Alike

open Viewpoint

variable {v : Viewpoint} {V : α → α → Prop} {V' : β → β → Prop} {act act' : Act μ α}

theorem pure {a a' : α} (holds : V a a') : (pure a : Act μ α).Alike v V (Pure.pure a') :=
  ⟨fun twins => .value holds twins⟩

theorem bind {f f' : α → Act μ β} (h : act.Alike v V act')
    (rest : ∀ {a a'}, V a a' → (f a).Alike v V' (f' a')) :
    (act >>= f).Alike v V' (act' >>= f') :=
  ⟨fun twins => (h.goes twins).bind fun holds worlds => (rest holds).goes worlds⟩

/-- Something else is made of the same value. -/
theorem map (h : act.Alike v Eq act') (f : α → β) :
    (do let a ← act; Pure.pure (f a) : Act μ β).Alike v Eq (do let a ← act'; Pure.pure (f a)) :=
  h.bind fun same => pure (congrArg f same)

theorem tell (e e' : Event) : (Act.tell e : Act μ Unit).Alike v Eq (Act.tell e') :=
  ⟨fun twins => .value rfl (twins.tell e e')⟩

theorem makeRoom (item : Room.Item) (count : Nat) :
    (Act.makeRoom item count : Act μ Unit).Steady v Eq := by
  refine ⟨fun twins => ?_⟩
  unfold Act.makeRoom
  split
  · exact .value rfl twins
  · exact .panic twins

theorem each {items : List γ} {act act' : γ → Act μ α} (h : ∀ b, (act b).Alike v V (act' b)) :
    (Act.each items act).Alike v (List.Forall₂ V) (Act.each items act') := by
  induction items with
  | nil => exact pure .nil
  | cons b rest ih =>
    rw [each_cons, each_cons]
    exact (h b).bind fun first => ih.bind fun others => pure (.cons first others)

end Act.Alike

/-! ### Readings -/

theorem rel_cases {P : α → β → Prop} {x : Option α} {y : Option β} (h : Option.Rel P x y) :
    x = none ∧ y = none ∨ ∃ a b, x = some a ∧ y = some b ∧ P a b := by
  cases h with
  | none => exact .inl ⟨rfl, rfl⟩
  | some holds => exact .inr ⟨_, _, rfl, rfl, holds⟩

namespace Viewpoint.Twins

variable {v : Viewpoint} {w w' : World μ}

/-- The table is asked in both. -/
theorem ask (h : v.Twins w w') {table : Table} (ht : w.table? v.table = some table) (after : Table) :
    v.Twins (w.setTable v.table (some after)) (w'.setTable v.table (some after)) where
  thread := h.thread
  checks := h.checks
  content := by
    rw [World.table?_setTable ht, World.table?_setTable (h.content ▸ ht), if_pos rfl, if_pos rfl]
  peer := h.peer
  refers := h.refers
  contexts := h.contexts
  trees := h.trees

/-- The peer is latched in both. -/
theorem latch (h : v.Twins w w') :
    v.Twins { w with peers := w.peers.modify v.peer ({ · with invalidated := true }) }
      { w' with peers := w'.peers.modify v.peer ({ · with invalidated := true }) } where
  thread := h.thread
  checks := h.checks
  content := h.content
  peer := by
    show (w.peers.modify v.peer _)[v.peer]? = (w'.peers.modify v.peer _)[v.peer]?
    rw [List.getElem?_modify, List.getElem?_modify, h.peer]
  refers {peer} hp := by
    obtain ⟨before, there, table, -⟩ := World.peer_of_latched hp
    exact table.trans (h.refers there)
  contexts := h.contexts
  trees := h.trees

/-- A context accepts a task in both. -/
theorem handed (h : v.Twins w w') {c : ContextId} {accepted accepted' : Context Ticket}
    (like : Context.Like w.clock w'.clock accepted accepted') :
    v.Twins (w.handed c accepted) (w'.handed c accepted') := by
  refine h.congr ⟨rfl, rfl⟩ ⟨rfl, rfl⟩ ⟨rfl, rfl⟩ ⟨rfl, rfl⟩ (fun c' => ?_) ⟨rfl, rfl⟩
  show Option.Rel _ (w.contexts.modify c fun _ => accepted)[c']?
    (w'.contexts.modify c fun _ => accepted')[c']?
  rw [List.getElem?_modify, List.getElem?_modify]
  rcases rel_cases (h.contexts c') with ⟨e, e'⟩ | ⟨context, context', e, e', like'⟩
  · rw [e, e']
    exact .none
  · rw [e, e']
    refine .some ?_
    dsimp only
    split
    · exact like
    · exact like'

/-- The table answers the same in both. -/
theorem consult (h : v.Twins w w') (read : Inquiry α) : ∃ result u u',
    consult v.table read w = .done result u ∧ consult v.table read w' = .done result u' ∧
      v.Twins u u' := by
  unfold TableAccess.consult
  simp only [Act.bind_apply, Act.get_apply, Progress.bind]
  rw [← h.content, ← h.checks, ← h.thread]
  cases ht : w.table? v.table with
  | none => exact ⟨_, w, w', rfl, rfl, h⟩
  | some table =>
    dsimp only
    generalize read.run w.checksOn w.thread table = outcome
    obtain ⟨result, after⟩ := outcome
    refine ⟨?_, _, _, ?_, ?_, h.ask ht after⟩
    · exact result.map some
    all_goals cases result <;> rfl

end Viewpoint.Twins

/-- Contexts that take tasks alike accept a task alike. -/
theorem Context.Like.accept {now now' : Instant} {c c' : Context Ticket} (h : Like now now' c c')
    (k k' : Ticket) :
    (∃ refusal, c.accept k = .error refusal ∧ c'.accept k' = .error refusal) ∨
      ∃ accepted accepted', c.accept k = .ok accepted ∧ c'.accept k' = .ok accepted' ∧
        Like now now' accepted accepted' := by
  have room : c'.HasRoom ↔ c.HasRoom := by
    unfold HasRoom
    rw [← h.capacity, ← h.waits]
    exact or_congr_right (and_congr_right fun none => by rw [h.waiting none])
  unfold Context.accept
  simp only [← h.running, room]
  split
  · exact .inl ⟨_, rfl, rfl⟩
  · split
    · refine .inr ⟨_, _, rfl, rfl, ⟨h.timeout, h.fits, rfl, h.capacity, ?_, fun _ => ?_⟩⟩
      · simp [h.waits]
      · rw [isWaiting_of_ne_nil (by simp), isWaiting_of_ne_nil (by simp)]
    · exact .inl ⟨_, rfl, rfl⟩

namespace Act.Alike

open Viewpoint

variable {v : Viewpoint} {a : Adapter}

/-- A reading is handed over. -/
theorem handOff (c : ContextId) (read : Inquiry α) :
    (TableAccess.handOff c none (consult v.table read) : Act μ _).Steady v Eq := by
  refine ⟨fun {w w'} twins => ?_⟩
  -- in both worlds the context is gone, or the reading is made at once, or it is refused, or it waits
  have told := twins.tell (.span .handOff) (.span .handOff)
  rcases rel_cases (twins.contexts c) with ⟨hc, hc'⟩ | ⟨context, context', hc, hc', like⟩
  · rw [handOff_of_absent none _ hc, handOff_of_absent none _ hc']
    exact .value rfl told
  · by_cases here : w.thread = .toolkit c
    · rw [handOff_of_here none _ here hc, handOff_of_here none _ (twins.thread ▸ here) hc']
      obtain ⟨result, u, u', run, run', twins'⟩ := told.consult read
      unfold runInline
      simp only [bind_apply, Act.attempt, run, run', Progress.attempt, Progress.bind]
      cases result with
      | ok value => exact .value rfl twins'
      | error p => exact .value rfl (twins'.tell _ _)
    · have here' : w'.thread ≠ .toolkit c := twins.thread ▸ here
      rcases like.accept w.tickets w'.tickets with ⟨refusal, refused, refused'⟩ |
        ⟨accepted, accepted', accepts, accepts', like'⟩
      · rw [handOff_of_refused none here _ hc refused, handOff_of_refused none here' _ hc' refused']
        cases refusal with
        | stopped => exact .value rfl told
        | full => exact .value rfl (told.tell _ _)
      · have fits : context.timeout.FitsClock (w.handed c accepted).clock := like.fits.1
        have fits' : context'.timeout.FitsClock (w'.handed c accepted').clock := like.fits.2
        rw [handOff_of_accepted none here _ hc accepts, handOff_of_accepted none here' _ hc' accepts',
          Option.getD_none, Option.getD_none, runQueued_of_fits fits, runQueued_of_fits fits',
          ← like.timeout]
        refine .calling (twins.handed like') (fun twins _ => twins.consult read)
          fun answer {s s'} twins => ?_
        cases answer with
        | some result => exact .value rfl twins
        | none => exact .value rfl (twins.tell _ _)

/-- What is known of the peer. -/
theorem isInvalidated : (Peer.isInvalidated v.peer : Act μ _).Steady v Eq := by
  refine ⟨fun {w w'} twins => ?_⟩
  unfold Peer.isInvalidated
  simp only [bind_apply, get_apply, Progress.bind, ← twins.peer]
  cases w.peers[v.peer]? with
  | none => exact .value rfl twins
  | some peer => exact .value rfl twins

theorem invalidate : (Peer.invalidate v.peer : Act μ _).Steady v Eq := by
  refine ⟨fun {w w'} twins => ?_⟩
  unfold Peer.invalidate
  simp only [bind_apply, get_apply, Progress.bind, ← twins.peer]
  cases w.peers[v.peer]? with
  | none => exact .value rfl twins
  | some peer =>
    dsimp only
    split
    · exact .value rfl twins
    · exact .value rfl (twins.latch.tell _ _)

/-- The peer reads the table. -/
theorem query (read : Inquiry (Except Unavailable α)) :
    (Peer.query v.peer read : Act μ _).Steady v Eq := by
  refine ⟨fun {w w'} twins => ?_⟩
  unfold Peer.query
  simp only [bind_apply, get_apply, Progress.bind, ← twins.peer]
  cases hp : w.peers[v.peer]? with
  | none => exact .value rfl twins
  | some peer =>
    dsimp only
    split
    · exact .value rfl twins
    rw [twins.refers hp]
    refine ((handOff peer.context (Reading.ofLive read)).goes twins).bind ?_
    rintro outcome _ u u' rfl twins'
    cases Peer.flatten outcome with
    | ok value => exact .value rfl twins'
    | error cause =>
      cases cause with
      | stalePeer => exact (invalidate.bind fun _ => pure rfl).goes twins'
      | _ => exact .value rfl twins'

theorem isValid : (Peer.isValid v.peer : Act μ _).Steady v Eq := by
  refine ⟨fun {w w'} twins => ?_⟩
  unfold Peer.isValid
  simp only [bind_apply, get_apply, Progress.bind, ← twins.peer]
  cases hp : w.peers[v.peer]? with
  | none => exact .value rfl twins
  | some peer =>
    dsimp only
    split
    · exact .value rfl twins
    rw [twins.refers hp, ← twins.content]
    split
    · exact (invalidate.bind fun _ => pure rfl).goes twins
    · refine ((query Reading.nothing).bind fun {result _} same => ?_).goes twins
      subst same
      cases result with
      | ok => exact pure rfl
      | error cause =>
        cases cause with
        | stalePeer => exact pure rfl
        | _ => exact isInvalidated.map _

/-! ### Nodes -/

theorem tryRead (peer : a.peer = v.peer) (read : Inquiry (Except Unavailable α)) :
    (a.tryRead read : Act μ _).Steady v Eq := by
  unfold Adapter.tryRead
  rw [peer]
  exact query read

theorem degrade (question : String) (result : Except Unavailable α) :
    (a.degrade question result : Act μ _).Steady v Eq := by
  cases result with
  | ok value => exact pure rfl
  | error cause => exact (tell _ _).bind fun _ => pure rfl

theorem read (peer : a.peer = v.peer) (question : String) (read : Inquiry (Except Unavailable α)) :
    (a.read question read : Act μ _).Steady v Eq :=
  (tryRead peer read).bind fun {_ _} same => same ▸ degrade question _

end Act.Alike

namespace Viewpoint

variable {v : Viewpoint} {tree tree' : Tree} {i : Identity} {k k' : NodeKey}
  {parent parent' : Option NodeKey} {peer : PeerId} {t : TreeId}

/-- A part that has no node gets one in both trees. -/
theorem Shares.add (h : v.Shares tree tree') (free : tree.find? i = none) (free' : tree'.find? i = none)
    (next : tree.nodes.nextKey? = some k) (next' : tree'.nodes.nextKey? = some k') :
    v.Same ⟨k, i, parent, peer, t⟩ ⟨k', i, parent', peer, t⟩ ∧
      v.Shares (tree.add ⟨k, i, parent, peer, t⟩) (tree'.add ⟨k', i, parent', peer, t⟩) := by
  have new : ¬v.Known ⟨k, i, parent, peer, t⟩ := fun known => by
    have there := (h.known known).1
    cases there.symm.trans (h.indexed.arena.get?_nextKey next)
  have new' : ¬v.Known ⟨k', i, parent', peer, t⟩ := fun known => by
    have there := (h.known known).2
    cases there.symm.trans (h.indexed'.arena.get?_nextKey next')
  have same : v.Same ⟨k, i, parent, peer, t⟩ ⟨k', i, parent', peer, t⟩ := .inr ⟨rfl, new, new'⟩
  refine ⟨same, h.alive, h.indexed.add next free, h.indexed'.add next' free', fun {j} own => ?_,
    fun known => ?_⟩
  · rw [h.indexed.find?_add next free, h.indexed'.find?_add next' free']
    split
    · exact .some same
    · exact h.nodes own
  · obtain ⟨there, there'⟩ := h.known known
    exact ⟨h.indexed.get?_add_of_some next there, h.indexed'.get?_add_of_some next' there'⟩

theorem Twins.modifyTree {w w' : World μ} (h : v.Twins w w') {f f' : Tree → Tree}
    (ht : w.trees[v.tree]? = some tree) (ht' : w'.trees[v.tree]? = some tree')
    (shares : v.Shares (f tree) (f' tree')) :
    v.Twins (w.modifyTree v.tree f) (w'.modifyTree v.tree f') where
  thread := h.thread
  checks := h.checks
  content := h.content
  peer := h.peer
  refers := h.refers
  contexts := h.contexts
  trees := by
    rw [World.getElem?_modifyTree ht, World.getElem?_modifyTree ht', if_pos rfl, if_pos rfl]
    exact .some shares

end Viewpoint

namespace Act.Alike

open Viewpoint

variable {v : Viewpoint} {a : Adapter} {i : Identity}

/-- The node of a part of the table is found or made in both. -/
theorem obtain (own : i.tableKey = v.key) (parent parent' : NodeKey) :
    (TableAccess.obtain v.tree i (some parent) v.peer : Act μ _).Alike v v.Same
      (TableAccess.obtain v.tree i (some parent') v.peer) := by
  refine ⟨fun {w w'} twins => ?_⟩
  unfold TableAccess.obtain getTree
  simp only [bind_apply, get_apply, Progress.bind]
  rcases rel_cases twins.trees with ⟨ht, ht'⟩ | ⟨tree, tree', ht, ht', shares⟩
  · rw [ht, ht']
    exact .panic twins
  · rw [ht, ht']
    simp only [pure_apply, Progress.bind]
    rcases rel_cases (shares.nodes own) with ⟨free, free'⟩ | ⟨b, b', found, found', same⟩
    · rw [free, free']
      dsimp only
      cases next : tree.nodes.nextKey? with
      | none => exact .full _
      | some k =>
        cases next' : tree'.nodes.nextKey? with
        | none => exact .full' _
        | some k' =>
          obtain ⟨same, shares'⟩ := shares.add free free' next next'
          exact .value same ((twins.modifyTree ht ht' shares').tell _ _)
    · rw [found, found']
      exact .value same twins

theorem rowNode (row : Nat) :
    (TableAccess.rowNode v.tree v.key v.peer row : Act μ _).Steady v v.Same := obtain rfl _ _

theorem columnNode (column : Nat) :
    (TableAccess.columnNode v.tree v.key v.peer column : Act μ _).Steady v v.Same := obtain rfl _ _

theorem cellNode (row column : Nat) :
    (TableAccess.cellNode v.tree v.key v.peer row column : Act μ _).Steady v v.Same :=
  (rowNode row).bind fun _ => obtain rfl _ _

theorem tree? (tree : a.tree = v.tree) {w w' : World μ} (twins : v.Twins w w') :
    Option.Rel v.Shares (a.tree? w) (a.tree? w') := by
  unfold Adapter.tree?
  rw [tree]
  rcases rel_cases twins.trees with ⟨ht, ht'⟩ | ⟨tree, tree', ht, ht', shares⟩
  · rw [ht, ht']
    exact .none
  · rw [ht, ht', Option.filter_some, Option.filter_some, ← shares.alive]
    split
    · exact .some shares
    · exact .none

theorem hasTree (tree : a.tree = v.tree) : (a.hasTree : Act μ _).Steady v Eq := by
  refine ⟨fun {w w'} twins => .value ?_ twins⟩
  rcases rel_cases (tree? tree twins) with ⟨ht, ht'⟩ | ⟨tree, tree', ht, ht', -⟩ <;> rw [ht, ht']
  rfl

/-! ### What nodes are asked -/

section Asked

variable (h : v.Has a)

include h

theorem parentOf : (a.parentOf : Act μ _).Steady v Eq := by
  have parentNode : (a.parentNode : Act μ _).Steady v Eq := by
    unfold Adapter.parentNode
    rw [h.peer]
    cases e : a.parent with
    | none => exact pure rfl
    | some k =>
      obtain ⟨b, known, rfl⟩ := h.parent k e
      refine isInvalidated.bind fun {latched _} same => ?_
      subst same
      split
      · exact pure rfl
      · refine ⟨fun {w w'} twins => .value ?_ twins⟩
        rcases rel_cases (tree? h.tree twins) with ⟨ht, ht'⟩ | ⟨tree, tree', ht, ht', shares⟩
        · rw [ht, ht']
        · rw [ht, ht', Option.bind_some, Option.bind_some, (shares.known known).1, (shares.known known).2]
  unfold Adapter.parentOf
  split
  · exact pure rfl
  · exact parentNode

/-- The nodes of what is counted. -/
theorem counted (question : String) (read : Inquiry (Except Unavailable Nat)) {item : Room.Item}
    {make : Nat → Act μ Adapter} (steady : ∀ n, (make n).Steady v v.Same) : Act.Steady v
      (List.Forall₂ v.Same) (do
        match ← a.read question read, ← a.hasTree with
        | some count, true => do
          Act.makeRoom item count
          Act.each (List.range count) make
        | _, _ => Pure.pure [] : Act μ (List Adapter)) := by
  refine (Alike.read h.peer question read).bind fun {count _} e => ?_
  subst e
  refine (hasTree h.tree).bind fun {held _} e => ?_
  subst e
  split
  · exact (makeRoom _ _).bind fun _ => each steady
  · exact pure .nil

theorem shape : (Adapter.Table.shape a : Act μ _).Steady v Eq := Alike.read h.peer "shape" Reading.shape

theorem snapshot (question : String) (row column : Nat) :
    (Adapter.Cell.snapshot a question row column : Act μ _).Steady v Eq :=
  Alike.read h.peer question (Reading.cell row column)

theorem header (column : Nat) : (Adapter.Column.header a column : Act μ _).Steady v Eq :=
  (tryRead h.peer (Reading.headerText column)).bind fun {_ _} same => same ▸ (degrade _ _).map _

theorem rowCells (row : Nat) : (Adapter.Row.cells a row : Act μ _).Steady v (List.Forall₂ v.Same) := by
  unfold Adapter.Row.cells
  rw [h.tree, h.own, h.peer]
  exact counted h _ (Reading.columnsOfRow row) fun column => cellNode row column

theorem columnCells (column : Nat) :
    (Adapter.Column.cells a column : Act μ _).Steady v (List.Forall₂ v.Same) := by
  unfold Adapter.Column.cells
  rw [h.tree, h.own, h.peer]
  exact counted h _ (Reading.rowsOfColumn column) fun row => cellNode row column

theorem label : (a.label : Act μ _).Steady v Eq := by
  unfold Adapter.label
  split
  · exact (shape h).map _
  · exact pure rfl
  · exact header h _
  · exact (snapshot h _ _ _).map _

theorem childCount : (a.childCount : Act μ _).Steady v Eq := by
  unfold Adapter.childCount
  split
  · exact (shape h).map _
  · exact read h.peer _ (Reading.columnsOfRow _)
  · exact read h.peer _ (Reading.rowsOfColumn _)
  · exact (snapshot h _ _ _).map _

theorem indexInParent : (a.indexInParent : Act μ _).Steady v Eq := by
  unfold Adapter.indexInParent
  split
  · exact pure rfl
  · exact read h.peer _ (Reading.rowIndex _)
  · exact read h.peer _ (Reading.columnIndex _)
  · exact (snapshot h _ _ _).map _

theorem roleAnswer (attr : Attribute) : (a.roleAnswer attr : Act μ _).Steady v Eq := by
  unfold Adapter.roleAnswer
  split
  · exact (read h.peer _ Reading.rowCount).map _
  · exact (read h.peer _ Reading.columnCount).map _
  · exact (read h.peer _ (Reading.rowIndex _)).map _
  · exact (read h.peer _ (Reading.columnsOfRow _)).map _
  · exact (read h.peer _ (Reading.columnIndex _)).map _
  · exact (header h _).map _
  · exact ((read h.peer _ (Reading.columnIndex _)).map _).map _
  · exact (read h.peer _ (Reading.rowsOfColumn _)).map _
  · exact ((snapshot h _ _ _).map _).map _
  · exact ((snapshot h _ _ _).map _).map _
  · exact ((snapshot h _ _ _).map _).map _
  · exact ((snapshot h _ _ _).map _).map _
  · exact ((snapshot h _ _ _).map _).map _
  · exact pure rfl

theorem children : (a.children : Act μ _).Steady v (List.Forall₂ v.Same) := by
  unfold Adapter.children
  split
  · rename_i k e
    refine (shape h).bind fun {shape _} same => ?_
    subst same
    cases shape with
    | none => exact pure .nil
    | some shape =>
      unfold Adapter.Table.childrenFor Adapter.Table.rowNodes Adapter.Table.columnNodes
      rw [h.tree, h.root k e, h.peer]
      refine (hasTree h.tree).bind fun {held _} same => ?_
      subst same
      split
      · refine (makeRoom _ _).bind fun _ => ?_
        refine (each rowNode).bind fun rows => (each columnNode).bind fun columns => ?_
        exact pure (List.rel_append rows columns)
      · exact pure .nil
  · exact rowCells h _
  · exact columnCells h _
  · exact pure .nil

theorem answer (attr : Attribute) : (a.answer attr : Act μ _).Steady v v.Answers := by
  have equal : ∀ {act : Act μ AttributeValue}, act.Steady v Eq → act.Steady v v.Answers := by
    intro act steady
    rw [← bind_pure act]
    exact steady.bind fun same => pure (.inl same)
  unfold Adapter.answer
  split
  · exact pure (.inl rfl)
  · refine equal (Alike.map ?_ _)
    unfold Adapter.isValid
    rw [h.peer]
    exact isValid
  · exact equal ((label h).map _)
  · refine (parentOf h).bind fun {parent _} same => ?_
    subst same
    cases parent with
    | none => exact pure (.inl rfl)
    | some => exact pure (.inl rfl)
  · exact (children h).bind fun same => pure (.inr ⟨_, _, rfl, rfl, same⟩)
  · exact equal ((childCount h).map _)
  · exact equal ((indexInParent h).map _)
  · exact equal (roleAnswer h _)

end Asked

end Act.Alike

end TableAccess
