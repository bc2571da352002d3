import TableAccess.Arena
import TableAccess.Context
import TableAccess.Event
import TableAccess.Table.Basic
import Std.Data.TreeMap

/-!
# The world

All state the bridge can see or change: the thread that is executing, the clock, the contexts with
their queues, the toolkit's tables, the peers that refer to tables, the trees of nodes and the bridges
over them, and what was told so far. Everything that has an identity of its own lives in a list of
the world and is named by its place in the list. What a task does is no part of the world; a queue
holds the tickets under which its tasks were accepted.

## The model

* `World μ` — the state, where `μ` is what those who use the bridge remember; the bridge never looks
  at that.
* `World.heard` — what one thread told since a given moment.
-/

namespace TableAccess

/-- Names a table. -/
abbrev TableId := Nat

/-- Names a peer. -/
abbrev PeerId := Nat

/-- Names a tree. -/
abbrev TreeId := Nat

/-- Names a bridge. -/
abbrev BridgeId := Nat

/-- Refers to a table without keeping it alive, and remembers when it was found gone. -/
structure Peer where
  /-- The table. -/
  table : TableId
  /-- The context that reads it. -/
  context : ContextId
  /-- The table was found dropped or disposed of; this never changes back. -/
  invalidated : Bool
deriving DecidableEq, Repr

/-- A node that stands for a table or a part of one. -/
structure Adapter where
  /-- Its key in its tree. -/
  key : NodeKey
  /-- What it stands for. -/
  identity : Identity
  /-- The key of its parent; a table has none. -/
  parent : Option NodeKey
  /-- The peer of its table. -/
  peer : PeerId
  /-- The tree it was made in. -/
  tree : TreeId
deriving DecidableEq, Repr

/-- The nodes of some tables. -/
structure Tree where
  /-- The context that reads the tables. -/
  context : ContextId
  /-- The nodes by key. -/
  nodes : Arena Adapter
  /-- The keys by identity. -/
  index : Std.TreeMap Identity NodeKey
  /-- Some bridge still holds the tree. -/
  alive : Bool

/-- Answers for a tree; the first table attached is its root. -/
structure Bridge where
  /-- The tree. -/
  tree : TreeId
  /-- The table that became the root last. -/
  root : Option NodeKey
deriving DecidableEq, Repr

/-- Names a task that was accepted. -/
abbrev Ticket := Nat

/-- All state the bridge can see or change, and the memory of its users. -/
structure World (μ : Type) where
  /-- The thread that is executing. -/
  thread : Thread
  /-- Affinity checks are switched on. -/
  checksOn : Bool
  /-- The contexts. -/
  contexts : List (Context Ticket)
  /-- The tables; one that was dropped is gone. -/
  tables : List (Option Table)
  /-- The peers. -/
  peers : List Peer
  /-- The trees. -/
  trees : List Tree
  /-- The bridges. -/
  bridges : List Bridge
  /-- What was told so far and on which thread, the last event in front. -/
  log : List (Thread × Event)
  /-- How many tickets were given out. -/
  tickets : Nat
  /-- How many threads outside every context there have been. -/
  clients : Nat
  /-- What the clock shows. -/
  clock : Instant
  /-- What the users remember. -/
  memory : μ

namespace World

variable {μ : Type}

/-- The world with nothing in it, seen from the first client thread, as the clock begins to count. -/
def empty (memory : μ) : World μ := ⟨.client 0, true, [], [], [], [], [], [], 0, 1, 0, memory⟩

/-- The table with an id, unless it was dropped. -/
def table? (w : World μ) (t : TableId) : Option Table := (w.tables[t]?).join

def setTable (w : World μ) (t : TableId) (table : Option Table) : World μ :=
  { w with tables := w.tables.set t table }

def modifyContext (w : World μ) (c : ContextId)
    (f : Context Ticket → Context Ticket) : World μ :=
  { w with contexts := w.contexts.modify c f }

def modifyTree (w : World μ) (t : TreeId) (f : Tree → Tree) : World μ :=
  { w with trees := w.trees.modify t f }

/-- The instant a bound from now. -/
def after (w : World μ) (bound : Duration) : Instant := w.clock + bound.nanos

def tell (w : World μ) (e : Event) : World μ := { w with log := (w.thread, e) :: w.log }

/-- What a thread told after the first `since` events, in order. -/
def heard (w : World μ) (since : Nat) (thread : Thread) : List Event :=
  ((w.log.take (w.log.length - since)).reverse.filter (·.1 = thread)).map Prod.snd

end World

end TableAccess
