import Mathlib.Algebra.GroupWithZero.Nat
import Mathlib.Logic.Relation
import TableAccess.Bridge
import TableAccess.Proofs.Chronicle

/-!
# Moments

The world changes by deeds. A deed is done at once: a context accepts a task or its thread takes the
next one, a table is edited or asked, a node is added to a tree, a table is taken out. Which thread
does the next deed is open; whatever several threads are about, they do it one deed after the other,
in some order. A moment is the world together with what was done before.

## The model

* `Deed` — what is remembered of what was done.
* `Moment` — a world with its past.
* `ContextStep`, `TableStep`, `TreeStep` — what can be done to contexts, to tables, and to trees with
  their peers and bridges.
* `Moment.Step` — one deed; `Moment.Goes` — any number of them.
* `Moment.Lived` — a moment that can come to be.
-/

namespace TableAccess

/-- The task of a context. -/
abbrev Task := ContextId × Ticket

/-- What was done. -/
inductive Deed where
  /-- A context accepted a task. -/
  | accepted (task : Task)
  /-- The thread of a context began a task. -/
  | began (task : Task)
  /-- The thread of a context finished a task. -/
  | finished (task : Task)
  /-- An editable table was made with some contents. -/
  | created (t : TableId) (g : Grid)
  /-- A table was edited, by a task or by a thread outside every context. -/
  | edited (t : TableId) (author : Option Task) (e : Edit)
  /-- A table said that it was disposed of. -/
  | foundDisposed (t : TableId)
  /-- A node was made. -/
  | made (a : Adapter)
  /-- So many nodes were taken out of a tree. -/
  | detached (t : TreeId) (nodes : Nat)
deriving DecidableEq, Repr

namespace Deed

def accepted? (c : ContextId) : Deed → Option Ticket
  | .accepted task => if task.1 = c then some task.2 else none
  | _ => none

def began? (c : ContextId) : Deed → Option Ticket
  | .began task => if task.1 = c then some task.2 else none
  | _ => none

def finished? (c : ContextId) : Deed → Option Ticket
  | .finished task => if task.1 = c then some task.2 else none
  | _ => none

def edit? (t : TableId) : Deed → Option (Option Task × Edit)
  | .edited t' author e => if t' = t then some (author, e) else none
  | _ => none

def removed? (t : TreeId) : Deed → Option Nat
  | .detached t' nodes => if t' = t then some nodes else none
  | _ => none

/-- The tree whose nodes a deed changes. -/
def tree? : Deed → Option TreeId
  | .made a => some a.tree
  | .detached t _ => some t
  | _ => none

end Deed

variable {μ : Type}

/-- The task that the executing thread is at. -/
def World.task? (w : World μ) : Option Task :=
  match w.thread with
  | .client _ => none
  | .toolkit c => ((w.contexts[c]?).bind Context.current).map fun task => (c, task)

/-- A world with what was done before. -/
structure Moment (μ : Type) where
  /-- What was done, in order. -/
  past : List Deed
  /-- The world. -/
  world : World μ

namespace Moment

/-- The tasks a context accepted, in order. -/
def accepted (m : Moment μ) (c : ContextId) : List Ticket := m.past.filterMap (Deed.accepted? c)

/-- The tasks the thread of a context began, in order. -/
def begun (m : Moment μ) (c : ContextId) : List Ticket := m.past.filterMap (Deed.began? c)

/-- The tasks the thread of a context finished, in order. -/
def finished (m : Moment μ) (c : ContextId) : List Ticket := m.past.filterMap (Deed.finished? c)

/-- The edits of a table with their authors, in order. -/
def edits (m : Moment μ) (t : TableId) : List (Option Task × Edit) := m.past.filterMap (Deed.edit? t)

/-- How many nodes were taken out of a tree. -/
def removals (m : Moment μ) (t : TreeId) : Nat := (m.past.filterMap (Deed.removed? t)).sum

end Moment

/-- Every row has a cell for each header. -/
def Grid.Rectangular (g : Grid) : Prop := ∀ row ∈ g.rows, row.length = g.headers.length

/-- What is done to contexts: the deeds, the contexts after them, and the number of tickets. -/
inductive ContextStep (w : World μ) : List Deed → List (Context Ticket) → Nat → Prop where
  /-- A context is started. -/
  | spawn {config : Config} {context : Context Ticket} (h : Context.spawn config = .ok context) :
    ContextStep w [] (w.contexts ++ [context]) w.tickets
  /-- A task is accepted. -/
  | accept {c : ContextId} {context context' : Context Ticket} (hc : w.contexts[c]? = some context)
      (h : context.accept w.tickets = .ok context') :
    ContextStep w [.accepted (c, w.tickets)] (w.contexts.modify c fun _ => context') (w.tickets + 1)
  /-- A context is stopped. -/
  | stop (c : ContextId) : ContextStep w [] (w.contexts.modify c Context.stop) w.tickets
  /-- Someone waits for the exit of a thread. -/
  | join (c : ContextId) : ContextStep w [] (w.contexts.modify c (·.join.2)) w.tickets
  /-- A thread takes the next message, or leaves. -/
  | next {c : ContextId} {context : Context Ticket} (hc : w.contexts[c]? = some context) :
    ContextStep w (context.beginning.map fun task => .began (c, task))
      (w.contexts.modify c Context.next) w.tickets
  /-- A thread is done with its task. -/
  | finish {c : ContextId} {context : Context Ticket} {task : Ticket}
      (hc : w.contexts[c]? = some context) (h : context.current = some task) :
    ContextStep w [.finished (c, task)] (w.contexts.modify c Context.finish) w.tickets

/-- What is done to tables: the deeds, and the tables after them. -/
inductive TableStep (w : World μ) : List Deed → List (Option Table) → Prop where
  /-- An editable table is made. -/
  | create {g : Grid} (h : g.Rectangular) :
    TableStep w [.created w.tables.length g] (w.tables ++ [some (.grid (.ofGrid g))])
  /-- A table of another kind is made. -/
  | createOther (r : Responder) : TableStep w [] (w.tables ++ [some (.responder r)])
  /-- A table is bound to a context. -/
  | bind {t : TableId} {g : GridTable} (ht : w.table? t = some (.grid g)) (c : ContextId) :
    TableStep w [] (w.tables.set t (some (.grid (g.bindTo c))))
  /-- A table is edited. -/
  | edit {t : TableId} {g g' : GridTable} {e : Edit} {reply : EditReply}
      (ht : w.table? t = some (.grid g)) (h : g.edit w.checksOn w.thread e = .ok (reply, g')) :
    TableStep w [.edited t w.task? e] (w.tables.set t (some (.grid g')))
  /-- A table is disposed of. -/
  | dispose {t : TableId} {g g' : GridTable} (ht : w.table? t = some (.grid g))
      (h : g.dispose w.checksOn w.thread = .ok g') :
    TableStep w [] (w.tables.set t (some (.grid g')))
  /-- A table is asked a question. -/
  | ask {t : TableId} {table : Table} (ht : w.table? t = some table) (q : Question) :
    TableStep w [] (w.tables.set t (some (table.ask w.checksOn w.thread q).2))
  /-- A table is asked whether it was disposed of, and says so. -/
  | askDisposed {t : TableId} {table : Table} (ht : w.table? t = some table)
      (h : (table.ask w.checksOn w.thread .isDisposed).1 = .ok true) :
    TableStep w [.foundDisposed t]
      (w.tables.set t (some (table.ask w.checksOn w.thread .isDisposed).2))
  /-- A table is dropped. -/
  | drop (t : TableId) : TableStep w [] (w.tables.set t none)

/-- A key that the parent of a node with this identity can have: a row or column belongs to its
table, a cell to the row that is in the tree. -/
inductive Tree.IsParent (tree : Tree) : Identity → NodeKey → Prop where
  | row (table : NodeKey) (row : Nat) : Tree.IsParent tree (.row table row) table
  | column (table : NodeKey) (column : Nat) : Tree.IsParent tree (.column table column) table
  | cell {table : NodeKey} {row : Nat} {a : Adapter}
      (ha : tree.find? (.row table row) = some a) (column : Nat) :
    Tree.IsParent tree (.cell table row column) a.key

/-- What is done to trees, to peers and to bridges: the deeds, and what there is after them. -/
inductive TreeStep (m : Moment μ) : List Deed → List Tree → List Peer → List Bridge → Prop where
  /-- A tree is made. -/
  | plant (c : ContextId) :
    TreeStep m [] (m.world.trees ++ [.empty c]) m.world.peers m.world.bridges
  /-- No bridge holds a tree any more. -/
  | letGo (t : TreeId) :
    TreeStep m [] (m.world.trees.modify t ({ · with alive := false })) m.world.peers
      m.world.bridges
  /-- A peer is made that belongs to no node. -/
  | refer {t : TableId} (there : t < m.world.tables.length) (c : ContextId) :
    TreeStep m [] m.world.trees (m.world.peers ++ [⟨t, c, false⟩]) m.world.bridges
  /-- A table is attached. -/
  | attach {t : TreeId} {tree : Tree} {table : TableId} {k : NodeKey}
      (ht : m.world.trees[t]? = some tree) (there : table < m.world.tables.length)
      (free : tree.tables.find? (standsFor m.world table) = none)
      (next : tree.nodes.nextKey? = some k) :
    TreeStep m [.made ⟨k, .table k, none, m.world.peers.length, t⟩]
      (m.world.trees.modify t (·.add ⟨k, .table k, none, m.world.peers.length, t⟩))
      (m.world.peers ++ [⟨table, tree.context, false⟩]) m.world.bridges
  /-- A row, column or cell gets its node, through a node of the same table. -/
  | make {t : TreeId} {tree : Tree} {i : Identity} {k parent : NodeKey} {through : Adapter}
      (ht : m.world.trees[t]? = some tree) (free : tree.find? i = none)
      (next : tree.nodes.nextKey? = some k) (known : .made through ∈ m.past)
      (here : through.tree = t) (same : i.tableKey = through.tableKey)
      (parent_ok : tree.IsParent i parent) :
    TreeStep m [.made ⟨k, i, some parent, through.peer, t⟩]
      (m.world.trees.modify t (·.add ⟨k, i, some parent, through.peer, t⟩))
      m.world.peers m.world.bridges
  /-- A table is taken out. -/
  | detach {t : TreeId} {tree : Tree} (ht : m.world.trees[t]? = some tree) (table : NodeKey) :
    TreeStep m [.detached t (tree.keysOf table).length]
      (m.world.trees.modify t (·.removeTable table)) m.world.peers m.world.bridges
  /-- A peer remembers that its table is gone. -/
  | invalidate {p : PeerId} {peer : Peer} (hp : m.world.peers[p]? = some peer)
      (gone : m.world.table? peer.table = none ∨ .foundDisposed peer.table ∈ m.past) :
    TreeStep m [] m.world.trees (m.world.peers.modify p ({ · with invalidated := true }))
      m.world.bridges
  /-- A bridge is made. -/
  | span (t : TreeId) :
    TreeStep m [] m.world.trees m.world.peers (m.world.bridges ++ [⟨t, none⟩])
  /-- A table that was just attached becomes the root of a bridge that has none. -/
  | root {b : BridgeId} {bridge : Bridge} {tree : Tree} {a : Adapter}
      (hb : m.world.bridges[b]? = some bridge) (ht : m.world.trees[bridge.tree]? = some tree)
      (none : (bridge.root.filter fun k => (tree.get? k).isSome) = none)
      (ha : tree.get? a.key = some a) (isTable : a.role = .table) :
    TreeStep m [] m.world.trees m.world.peers
      (m.world.bridges.modify b ({ · with root := some a.key }))

namespace Moment

/-- One deed. -/
inductive Step : Moment μ → Moment μ → Prop where
  /-- Another thread goes on; time goes by; something is told or remembered. -/
  | aside (m : Moment μ) (thread : Thread) (checksOn : Bool) (log : List (Thread × Event))
      (clients : Nat) (clock : Instant) (memory : μ) :
    Step m ⟨m.past, { m.world with
      thread := thread, checksOn := checksOn, log := log, clients := clients, clock := clock,
      memory := memory }⟩
  /-- Something is done to contexts. -/
  | contexts {m : Moment μ} {deeds : List Deed} {contexts : List (Context Ticket)} {tickets : Nat}
      (h : ContextStep m.world deeds contexts tickets) :
    Step m ⟨m.past ++ deeds, { m.world with contexts := contexts, tickets := tickets }⟩
  /-- Something is done to tables. -/
  | tables {m : Moment μ} {deeds : List Deed} {tables : List (Option Table)}
      (h : TableStep m.world deeds tables) :
    Step m ⟨m.past ++ deeds, { m.world with tables := tables }⟩
  /-- Something is done to trees, peers or bridges. -/
  | trees {m : Moment μ} {deeds : List Deed} {trees : List Tree} {peers : List Peer}
      {bridges : List Bridge} (h : TreeStep m deeds trees peers bridges) :
    Step m ⟨m.past ++ deeds, { m.world with trees := trees, peers := peers, bridges := bridges }⟩

/-- Any number of deeds, one after the other. -/
def Goes : Moment μ → Moment μ → Prop := Relation.ReflTransGen Step

/-- The moment in which nothing was done yet. -/
def first (memory : μ) : Moment μ := ⟨[], .empty memory⟩

/-- A moment that can come to be. -/
def Lived (m : Moment μ) : Prop := ∃ memory, (first memory).Goes m

variable {m m' : Moment μ}

/-- What is remembered of contexts is about tasks, -/
theorem contextStep_deed {w : World μ} {deeds : List Deed} {contexts : List (Context Ticket)}
    {tickets : Nat} (h : ContextStep w deeds contexts tickets) {d : Deed} (hd : d ∈ deeds) :
    ∃ task, d = .accepted task ∨ d = .began task ∨ d = .finished task := by
  cases h with
  | accept => exact ⟨_, .inl (List.mem_singleton.1 hd)⟩
  | finish => exact ⟨_, .inr (.inr (List.mem_singleton.1 hd))⟩
  | next =>
    obtain ⟨task, -, rfl⟩ := List.mem_map.1 hd
    exact ⟨_, .inr (.inl rfl)⟩
  | _ => cases hd

/-- of tables about tables, -/
theorem tableStep_deed {w : World μ} {deeds : List Deed} {tables : List (Option Table)}
    (h : TableStep w deeds tables) {d : Deed} (hd : d ∈ deeds) :
    ∃ t, (∃ g, d = .created t g) ∨ (∃ task e, d = .edited t task e) ∨ d = .foundDisposed t := by
  cases h with
  | create => exact ⟨_, .inl ⟨_, List.mem_singleton.1 hd⟩⟩
  | edit => exact ⟨_, .inr (.inl ⟨_, _, List.mem_singleton.1 hd⟩)⟩
  | askDisposed => exact ⟨_, .inr (.inr (List.mem_singleton.1 hd))⟩
  | _ => cases hd

/-- and of trees about nodes. -/
theorem treeStep_deed {deeds : List Deed} {trees : List Tree} {peers : List Peer}
    {bridges : List Bridge} (h : TreeStep m deeds trees peers bridges) {d : Deed} (hd : d ∈ deeds) :
    (∃ a, d = .made a) ∨ ∃ t nodes, d = .detached t nodes := by
  cases h with
  | attach | make => exact .inl ⟨_, List.mem_singleton.1 hd⟩
  | detach => exact .inr ⟨_, _, List.mem_singleton.1 hd⟩
  | _ => cases hd

theorem Goes.refl (m : Moment μ) : m.Goes m := Relation.ReflTransGen.refl

theorem Goes.trans {m'' : Moment μ} (h : m.Goes m') (h' : m'.Goes m'') : m.Goes m'' :=
  Relation.ReflTransGen.trans h h'

theorem Step.goes (h : m.Step m') : m.Goes m' := Relation.ReflTransGen.single h

theorem Lived.goes (h : m.Lived) (later : m.Goes m') : m'.Lived :=
  h.imp fun _ before => before.trans later

/-- What every step keeps holds at every later moment. -/
theorem Goes.keeps {P : Moment μ → Prop} (later : m.Goes m') (h : P m)
    (step : ∀ {m m' : Moment μ}, m.Step m' → P m → P m') : P m' := by
  induction later with
  | refl => exact h
  | tail _ last ih => exact step last ih

/-- What holds first and is kept by every step holds at every moment that can come to be. -/
theorem Lived.keeps {P : Moment μ → Prop} (h : m.Lived) (start : ∀ memory, P (first memory))
    (step : ∀ {m m' : Moment μ}, m.Step m' → P m → P m') : P m := by
  obtain ⟨memory, before⟩ := h
  exact before.keeps (start memory) step

theorem Step.past (h : m.Step m') : m.past <+: m'.past := by
  cases h with
  | aside => exact List.prefix_rfl
  | contexts => exact List.prefix_append _ _
  | tables => exact List.prefix_append _ _
  | trees => exact List.prefix_append _ _

/-- What was done stays done. -/
theorem Goes.past (h : m.Goes m') : m.past <+: m'.past :=
  h.keeps (P := fun m' => m.past <+: m'.past) List.prefix_rfl
    fun step before => before.trans step.past

theorem Goes.remembers {d : Deed} (h : m.Goes m') (done : d ∈ m.past) : d ∈ m'.past :=
  h.past.subset done

end Moment

/-! ### One table attached to one tree -/

/-- A table that was just made. -/
inductive Table.New : Table → Prop where
  /-- An editable table. -/
  | grid {g : Grid} (h : g.Rectangular) : Table.New (.grid (.ofGrid g))
  /-- Any other table. -/
  | responder (r : Responder) : Table.New (.responder r)

/-- The world with a context, and with one table attached to the tree of one bridge. -/
def World.attached (memory : μ) (thread : Thread) (context : Context Ticket) (table : Table) :
    World μ :=
  { World.empty memory with
    thread := thread
    contexts := [context]
    tables := [some table]
    peers := [⟨0, 0, false⟩]
    trees := [(Tree.empty 0).add ⟨Arena.keyAt 0 1, .table (Arena.keyAt 0 1), none, 0, 0⟩]
    bridges := [⟨0, none⟩] }

/-- It can come to be, with any table, before the table is edited and before a node is taken out. -/
theorem Moment.lived_of_attached (table : Table) {config : Config} {context : Context Ticket}
    (h : Context.spawn config = .ok context) (new : table.New) (memory : μ) (thread : Thread) :
    ∃ m : Moment μ, m.Lived ∧ m.world = World.attached memory thread context table ∧
      ∀ t, m.edits t = [] ∧ m.removals t = 0 := by
  have spawned := (Step.contexts (m := .first memory) (.spawn h)).goes
  have planted := spawned.trans (Step.trees (.plant 0)).goes
  have spanned := planted.trans (Step.trees (.span 0)).goes
  obtain ⟨past, made, untouched⟩ : ∃ past, (Moment.first memory).Goes ⟨past, { World.empty memory with
      contexts := [context], trees := [.empty 0], bridges := [⟨0, none⟩], tables := [some table] }⟩ ∧
      ∀ t, past.filterMap (Deed.edit? t) = [] ∧ past.filterMap (Deed.removed? t) = [] := by
    cases new with
    | grid h => exact ⟨_, spanned.trans (Step.tables (.create h)).goes, fun _ => ⟨rfl, rfl⟩⟩
    | responder r =>
      exact ⟨_, spanned.trans (Step.tables (.createOther r)).goes, fun _ => ⟨rfl, rfl⟩⟩
  have attached := made.trans (Step.trees (@TreeStep.attach μ _ 0 (.empty 0) 0 (Arena.keyAt 0 1)
    rfl (by simp) rfl rfl)).goes
  refine ⟨_, ⟨memory, attached.trans (Step.aside _ thread true [] 1 0 memory).goes⟩, rfl, ?_⟩
  intro t
  rw [edits, removals, List.filterMap_append, List.filterMap_append, (untouched t).1, (untouched t).2]
  exact ⟨rfl, rfl⟩

namespace Context

/-- A queue that finds room is short enough to be counted. -/
theorem lt_queueLimit {config : Config} (room : Room.Fits .message config.queueCapacity) :
    ¬queueLimit ≤ config.queueCapacity := by
  have bytes : 24 * config.queueCapacity ≤ 0x7FFFFFFFFFFFFFFF := room
  unfold queueLimit
  omega

/-- A context starts whose queue finds room and whose thread can be given its name. -/
theorem spawn_of_named {τ : Type} {config : Config} (room : Room.Fits .message config.queueCapacity)
    (named : zeroByte? config.threadName = none) : spawn config = .ok (start config : Context τ) := by
  rw [spawn, if_neg (lt_queueLimit room), Room.check_eq_ok_iff.2 room, named]
  rfl

/-- The name of a thread that nobody has named can be given to it. -/
theorem zeroByte?_default : zeroByte? Config.default.threadName = none := by decide +kernel

theorem spawn_default : spawn .default = .ok (start .default : Context Ticket) :=
  spawn_of_named (by decide) zeroByte?_default

end Context

/-- Hand-offs are to wait for longer than the clock can count. -/
def Config.endless : Config := { Config.default with handOffTimeout := .ofSeconds 0x8000000000000000 }

theorem Context.spawn_endless : spawn .endless = .ok (start .endless : Context Ticket) :=
  spawn_of_named (by decide) zeroByte?_default

/-- So can a world with an editable table and a context that runs as it does when nobody says how. -/
theorem Moment.lived_of_grid {g : Grid} (rectangular : g.Rectangular) (memory : μ) (thread : Thread) :
    ∃ m : Moment μ, m.Lived ∧
      m.world = World.attached memory thread (.start .default) (.grid (.ofGrid g)) ∧
      ∀ t, m.edits t = [] ∧ m.removals t = 0 :=
  lived_of_attached _ Context.spawn_default (.grid rectangular) memory thread

/-- The table may have a single cell. -/
theorem Moment.lived_of_cell (memory : μ) (thread : Thread) :
    ∃ m : Moment μ, m.Lived ∧
      m.world = World.attached memory thread (.start .default) (.grid (.ofGrid ⟨"", [""], [[""]]⟩)) ∧
      ∀ t, m.edits t = [] ∧ m.removals t = 0 :=
  lived_of_grid (by simp [Grid.Rectangular]) memory thread

end TableAccess
