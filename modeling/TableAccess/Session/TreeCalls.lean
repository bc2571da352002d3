import TableAccess.DebugText
import TableAccess.Outline
import TableAccess.Session.NodeCalls

/-!
# Calls to trees, bridges and peers

What a session asks of the tree of a bridge, of the bridge itself, and of peers.
-/

namespace TableAccess.Session

/-- A bridge, with the tree it is over. -/
def bridgeAt (b : BridgeId) : Work (Bridge × Tree) := do
  let bridge ← act (Bridge.getBridge b)
  return (bridge, ← act (getTree bridge.tree))

/-- The name of a context. -/
def contextName (c : ContextId) : Work String := do
  return (((← get).contexts[c]?).map Context.name).getD ""

/-- What the tree of a bridge answers. -/
def askTree (b : BridgeId) (call : TreeCall) : Work Answer := do
  let (bridge, tree) ← bridgeAt b
  match call with
  | .size => pure (.size tree.size)
  | .tables => pure (.keys (tree.tables.map Adapter.key))
  | .get ref => return .node ((tree.get? (← keyAt ref)).map brief)
  | .detach ref => do
    let k ← keyAt ref
    return .count (some (← act (detachTable bridge.tree k)))
  | .prune => return .count (some (← act (prune bridge.tree)))
  | .contextName => return .text (some (← contextName tree.context))
  | .debugText => pure (.text (some tree.debugText))
  | .outline options none => return .text (some (← act (outlineAll options bridge.tree)))
  | .outline options (some ref) => do
    let a ← adapterAt ref
    return .text (some (← act (outlineUnder options a)))
  | .malformed => complain .badInput

/-- What a bridge answers. -/
def askBridge (b : BridgeId) (call : BridgeCall) : Work Answer := do
  match call with
  | .root => return .key (← act (Bridge.root? b))
  | .query ref attr => do
    let id ← idAt ref
    return .value (← act (Bridge.query b id attr))
  | .queryAll ref => do
    let id ← idAt ref
    act (valuesBy (Bridge.query b id))
  | .treeUpdate ref => do
    let k ← keyAt ref
    return .update (← act (Bridge.treeUpdate b k))
  | .nodeUpdate ref => do
    let k ← keyAt ref
    return .update (← act (Bridge.nodeUpdate b k))
  | .initialTree => return .update (← act (Bridge.initialTree b))
  | .act ref action => do
    let id ← idAt ref
    act (Bridge.ignoreAction b id action)
    pure .nothing
  | .debugText => do
    let (bridge, tree) ← bridgeAt b
    pure (.text (some (bridge.debugText tree)))
  | .malformedAt ref => do
    let _ ← idAt ref
    complain .badInput
  | .malformed => complain .badInput

/-- Attaches a table, through a bridge or to its tree only. -/
def attach (table bridge : String) (toTree : Bool) (handle : Option String) : Work Answer := do
  let t ← tableNamed table
  let b ← bridgeNamed bridge
  let a ←
    if toTree then do
      let (bridge, _) ← bridgeAt b
      act (attachTable bridge.tree t)
    else act (Bridge.attach b t)
  act (keep handle a)
  pure (.key (some a.key))

/-- The tree of a new bridge. -/
def TreeSource.tree : TreeSource → Work TreeId
  | .ofBridge name => do
    let b ← bridgeNamed name
    return (← bridgeAt b).1.tree
  | .fresh context => do
    let c ← contextNamed context
    let t := (← get).trees.length
    act (modify fun w => { w with trees := w.trees ++ [.empty c] })
    pure t

/-- Makes a bridge in place of the one with the name. -/
def newBridge (name : String) (source : TreeSource) : Work Answer := do
  let t ← source.tree
  let b := (← get).bridges.length
  act (modify fun w => { w with bridges := w.bridges ++ [⟨t, none⟩] })
  act (modifyDesk fun d => { d with bridges := d.bridges.put name b })
  pure .nothing

/-- A reading of a table and its value as an answer. -/
def PeerReading.inquiry : PeerReading → Inquiry (Except Unavailable Answer)
  | .columnCount => return (← Reading.columnCount).map fun n => .count (some n)
  | .rowCount => return (← Reading.rowCount).map fun n => .count (some n)
  | .tableName => return (← Reading.name).map .text
  | .stale => pure (.error .stalePeer)
  | .outOfRange => do
    let index ← Inquiry.question .rowCount
    let count ← Inquiry.question .rowCount
    pure (.error (.indexOutOfRange .row index count))
  | .panic => .fail ⟨"scripted panic"⟩

/-- A new peer of a table in place of the one with the name. -/
def newPeer (name table context : String) : Work Answer := do
  let c ← contextNamed context
  let t ← tableNamed table
  let p := (← get).peers.length
  act (modify fun w => { w with peers := w.peers ++ [⟨t, c, false⟩] })
  act (modifyDesk fun d => { d with peers := d.peers.put name p })
  pure .nothing

/-- What a peer answers. -/
def askPeer (name : String) (call : PeerCall) : Work Answer := do
  match call with
  | .make table context => newPeer name table context
  | .isValid => return .flag (← act (Peer.isValid (← peerNamed name)))
  | .isInvalidated => return .flag (← act (Peer.isInvalidated (← peerNamed name)))
  | .refersTo table => do
    let p ← peerNamed name
    let t ← tableNamed table
    return .flag (((← get).peers[p]?).any (·.table == t))
  | .contextName => do
    let p ← peerNamed name
    match (← get).peers[p]? with
    | some peer => return .text (some (← contextName peer.context))
    | none => complain .noPeer
  | .debugText context => do
    let p ← peerNamed name
    awaitIdle (← contextNamed context)
    return .text (some ((← get).peerText p))
  | .query reading => do
    let p ← peerNamed name
    orUnavailable (← act (Peer.query p reading.inquiry))
  | .malformed => do
    let _ ← peerNamed name
    complain .badInput

end TableAccess.Session
