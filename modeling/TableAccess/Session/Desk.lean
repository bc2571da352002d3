import TableAccess.Bridge
import TableAccess.Session.Answer
import TableAccess.Session.Names
import TableAccess.Session.Step

/-!
# The desk

What a session remembers: which thing goes by which name, the reports of posted steps, and who holds
what. A tree lives as long as a bridge with a name is over it; a context is stopped when nobody
holds it any more: no name, no living tree, and no peer of a name or of a held node. A thread is
kept busy as long as its context goes by a name. What a step has looked up it holds on to until it
is over, whatever happens to the names meanwhile.

## The model

* `Desk` — the memory of a session.
* `Work α` — a piece of work of a session, which ends with an `α` or with a trouble.
* `tableNamed`, `adapterAt`, … — the things a step names, or the complaint that there is none.
* `holding` — a step under way, with what it holds on to.
* `collect` — lets go of what nobody holds any more.
-/

namespace TableAccess.Session

/-- What a step holds on to. -/
inductive Hold where
  /-- A context that was found by its name, which counts as a name of it. -/
  | name (c : ContextId)
  /-- A context that was found by what is read on it. -/
  | context (c : ContextId)
  /-- A tree. -/
  | tree (t : TreeId)
deriving DecidableEq, Repr

/-- What a session remembers. -/
structure Desk where
  /-- The contexts by name. -/
  contexts : Names ContextId
  /-- The bridges by name. -/
  bridges : Names BridgeId
  /-- The tables by name. -/
  tables : Names TableId
  /-- The held nodes by name. -/
  handles : Names Adapter
  /-- The peers by name. -/
  peers : Names PeerId
  /-- The reports of posted steps, in order. -/
  posted : List Report
  /-- The contexts whose threads are kept busy. -/
  gated : List ContextId
  /-- The steps under way, each with its thread and what it holds on to; of two on one thread, the
  inner one is in front. -/
  underWay : List (Thread × List Hold)
  /-- What threads of a crew have found out, by the number of the crew and their place in it. -/
  findings : List ((Nat × Nat) × List Outcome)
  /-- The contexts that nobody holds any more. -/
  abandoned : List ContextId
  /-- What the steps came to so far, the last one in front. -/
  results : List Result
  /-- The session is over: it could not be opened, or all steps were carried out. -/
  closing : Option (Except Trouble Unit)

/-- A piece of work of a session. -/
abbrev Work := ExceptT Trouble (Act Desk)

/-- The desk with nothing on it. -/
def Desk.empty : Desk := ⟨[], [], [], [], [], [], [], [], [], [], [], none⟩

/-- Work of the bridge as work of a session. -/
def act {α : Type} (work : Act Desk α) : Work α := ExceptT.lift work

/-- What is on the desk. -/
def desk : Work Desk := return (← get).memory

/-- Changes what is on the desk. -/
def modifyDesk (f : Desk → Desk) : Act Desk Unit :=
  modify fun w => { w with memory := f w.memory }

/-- Ends with a complaint. -/
def complain {α : Type} (c : Complaint) : Work α := throw (.complaint c)

/-- The thing, or else a complaint. -/
def orComplain {α : Type} (c : Complaint) : Option α → Work α
  | some a => pure a
  | none => complain c

/-- The value of a reading, or why it has none. -/
def orUnavailable {α : Type} : Except Unavailable α → Work α
  | .ok a => pure a
  | .error cause => throw (.unavailable cause)

/-- Work that panics or goes on. -/
def orPanic {α : Type} : Except Panic α → Work α
  | .ok a => pure a
  | .error p => act (throw p)

/-- The innermost step of a thread with one more thing that it holds on to. -/
def addHold (thread : Thread) (hold : Hold) : List (Thread × List Hold) → List (Thread × List Hold)
  | [] => []
  | (t, holds) :: rest =>
    if t = thread then (t, hold :: holds) :: rest else (t, holds) :: addHold thread hold rest

/-- The step that is being carried out holds on to something. -/
def holdOn (hold : Hold) : Act Desk Unit := do
  let thread := (← get).thread
  modifyDesk fun d => { d with underWay := addHold thread hold d.underWay }

/-- The step that is being carried out holds on to the context that a peer reads on. -/
def holdOnPeer (p : PeerId) : Act Desk Unit := do
  if let some peer := (← get).peers[p]? then holdOn (.context peer.context)

/-- A step under way: what it holds on to it holds until it is over. -/
def holding {α : Type} (work : Act Desk α) : Act Desk α := do
  let thread := (← get).thread
  modifyDesk fun d => { d with underWay := (thread, []) :: d.underWay }
  let a ← work
  modifyDesk fun d => { d with underWay := d.underWay.eraseP (·.1 = thread) }
  pure a

/-- The context with a name. -/
def contextNamed (name : String) : Work ContextId := do
  let c ← orComplain .noContext ((← desk).contexts.find? name)
  act (holdOn (.name c))
  pure c

/-- The bridge with a name. -/
def bridgeNamed (name : String) : Work BridgeId := do
  let b ← orComplain .noBridge ((← desk).bridges.find? name)
  act do holdOn (.tree (← Bridge.getBridge b).tree)
  pure b

/-- The table with a name. -/
def tableNamed (name : String) : Work TableId := do
  orComplain .noTable ((← desk).tables.find? name)

/-- The node held under a name. -/
def handleNamed (name : String) : Work Adapter := do
  let a ← orComplain .noHandle ((← desk).handles.find? name)
  act (holdOnPeer a.peer)
  pure a

/-- The peer with a name. -/
def peerNamed (name : String) : Work PeerId := do
  let p ← orComplain .noPeer ((← desk).peers.find? name)
  act (holdOnPeer p)
  pure p

/-- The node that a reference points at. Only the node is held on to, not the bridge that led to
it. -/
def adapterAt : NodeRef → Work Adapter
  | .handle name => handleNamed name
  | .id bridge id => do
    let b ← orComplain .noBridge ((← desk).bridges.find? bridge)
    let a ← orComplain .noNode (← act (Bridge.node? b id))
    act (holdOnPeer a.peer)
    pure a
  | .missing => complain .badInput

/-- The id that a reference stands for; an id stands for itself. -/
def idAt : NodeRef → Work NodeId
  | .handle name => return (← handleNamed name).key.toRaw
  | .id _ id => pure id
  | .missing => complain .badInput

/-- The key that a reference stands for, whether or not a node is there. -/
def keyAt (ref : NodeRef) : Work NodeKey := return .ofRaw (← idAt ref)

/-- Holds a node under a name. -/
def keep (handle : Option String) (a : Adapter) : Act Desk Unit :=
  match handle with
  | some name => modifyDesk fun d => { d with handles := d.handles.put name a }
  | none => pure ()

/-- What the steps under way hold on to. -/
def heldBySteps (w : World Desk) : List Hold := w.memory.underWay.flatMap Prod.snd

/-- A bridge with a name is over the tree, or a step holds on to it. -/
def treeHeld (w : World Desk) (t : TreeId) : Bool :=
  w.memory.bridges.things.any (fun b => (w.bridges[b]?).any (·.tree == t)) ||
    (heldBySteps w).contains (.tree t)

/-- The contexts that go by a name, or did when a step under way looked them up. -/
def namedContexts (w : World Desk) : List ContextId :=
  w.memory.contexts.things ++ (heldBySteps w).filterMap fun
    | .name c => some c
    | _ => none

/-- The contexts that peers read on. -/
def contextsOf (w : World Desk) (peers : List PeerId) : List ContextId :=
  peers.filterMap fun p => (w.peers[p]?).map Peer.context

/-- The contexts that someone holds. -/
def heldContexts (w : World Desk) : List ContextId :=
  namedContexts w ++ (w.trees.filter Tree.alive).map Tree.context ++
    contextsOf w w.memory.peers.things ++ contextsOf w (w.memory.handles.things.map Adapter.peer) ++
    (heldBySteps w).filterMap fun
      | .context c => some c
      | _ => none

/-- Stops a context; the first time this is told. -/
def stopContext (c : ContextId) : Act Desk Unit := do
  if let some context := (← get).contexts[c]? then
    if context.running then Act.tell (.contextStopping context.name)
    modify (·.modifyContext c Context.stop)

/-- Stops a context that nobody holds any more. -/
def abandon (c : ContextId) : Act Desk Unit := do
  let w ← get
  if c ∈ heldContexts w ∨ c ∈ w.memory.abandoned then pure ()
  else
    stopContext c
    modifyDesk fun d => { d with abandoned := c :: d.abandoned }

/-- Threads are kept busy only as long as their contexts go by a name. -/
def keepNamedGates (w : World Desk) : World Desk :=
  let named := namedContexts w
  { w with memory := { w.memory with gated := w.memory.gated.filter (named.contains ·) } }

/-- Trees live only as long as they are held. -/
def keepHeldTrees (w : World Desk) : World Desk :=
  { w with trees := w.trees.mapIdx fun t tree => { tree with alive := treeHeld w t } }

/-- Lets go of what nobody holds any more. -/
def collect : Act Desk Unit := do
  modify fun w => keepHeldTrees (keepNamedGates w)
  let _ ← Act.each (List.range (← get).contexts.length) abandon

end TableAccess.Session
