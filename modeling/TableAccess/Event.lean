import TableAccess.Action
import TableAccess.Attribute
import TableAccess.Unavailable

/-!
# Events

What the bridge and its contexts tell about themselves while they work. A span marks the start of a
piece of work; an event has a level, a target to filter by, a message and fields.

## The model

* `Event` — the spans and events, with the values they carry.
* `Event.line` — level, target, message and fields as texts.
-/

namespace TableAccess

/-- A piece of work that is timed. -/
inductive Span where
  /-- One attribute query. -/
  | query
  /-- One hand-off to a context. -/
  | handOff
  /-- The build of an update. -/
  | treeUpdate
deriving DecidableEq, Repr

/-- The name of a span. -/
def Span.name : Span → String
  | .query => "horizon_axbridge::query"
  | .handOff => "horizon_axbridge::handoff"
  | .treeUpdate => "horizon_axbridge::tree_update"

/-- Whom an event is about. -/
inductive Target where
  /-- The life of a context. -/
  | context
  /-- Hand-offs. -/
  | handOff
  /-- Nodes and bridges. -/
  | bridge
deriving DecidableEq, Repr

/-- The name to filter by. -/
def Target.name : Target → String
  | .context => "horizon_axbridge_core::context"
  | .handOff => "horizon_axbridge_core::handoff"
  | .bridge => "horizon_axbridge"

/-- How much an event matters. -/
inductive Level where
  /-- Only for tracing. -/
  | trace
  /-- For debugging. -/
  | debug
  /-- For information. -/
  | info
  /-- A warning. -/
  | warn
deriving DecidableEq, Repr

/-- The name of a level. -/
def Level.name : Level → String
  | .trace => "TRACE"
  | .debug => "DEBUG"
  | .info => "INFO"
  | .warn => "WARN"

/-- What was told. -/
inductive Event where
  /-- A piece of work starts. -/
  | span (operation : Span)
  /-- A context's thread was started. -/
  | contextStarted (name : String) (timeout : Duration)
  /-- A running context was told to stop. -/
  | contextStopping (name : String)
  /-- A task run by its own caller on the context's thread panicked. -/
  | inlineTaskPanicked (context : String)
  /-- A hand-off was not answered in time. -/
  | handOffTimedOut (context : String) (timeout : Duration) (pending : Nat)
  /-- A context's queue had no room. -/
  | queueFull (context : String)
  /-- A table was found dropped or disposed of. -/
  | peerInvalidated
  /-- A row, column or cell node was made. -/
  | adapterCreated (node : NodeId) (identity : Identity)
  /-- A table node was made. -/
  | tableAttached (node : NodeId)
  /-- A table and its nodes were taken out of the tree. -/
  | tableDetached (node : NodeId) (removed : Nat)
  /-- A reading had no value. -/
  | queryUnavailable (role : Role) (node : NodeId) (query : String) (cause : Unavailable)
  /-- A table became the root of a bridge. -/
  | becameRoot (node : NodeId)
  /-- An id names no node. -/
  | unknownNode (node : NodeId) (attr : Attribute)
  /-- An attribute was answered. -/
  | queryAnswered (node : NodeId) (role : Role) (attr : Attribute) (value : AttributeValue)
  /-- The root of an update cannot be built. -/
  | rootUnavailable (node : NodeId)
  /-- An update was built. -/
  | updateBuilt (node : NodeId) (count : Nat)
  /-- Children of a node could not be built and were left out. -/
  | childVanished (node : NodeId) (dropped : Nat)
  /-- An action was asked of a node; nodes only read. -/
  | actionIgnored (node : NodeId) (action : Action) (known : Bool)
deriving DecidableEq, Repr

namespace Event

/-- The words of an event. -/
structure Line where
  /-- How much it matters. -/
  level : Level
  /-- Whom it is about. -/
  target : Target
  /-- What happened. -/
  message : String
  /-- The values it carries, by name. -/
  fields : List (String × String)
deriving DecidableEq, Repr

def idText (id : NodeId) : String := toString id.toNat

/-- A failed reading matters more when the context is to blame. -/
def unavailableLevel (cause : Unavailable) : Level :=
  if cause.isContextFailure then .warn else .debug

/-- The words of an event; a span has none but its name. -/
def line : Event → Except Span Line
  | .span operation => .error operation
  | .contextStarted name timeout =>
    .ok ⟨.debug, .context, "toolkit context started",
      [("name", name), ("timeout", timeout.render)]⟩
  | .contextStopping name => .ok ⟨.debug, .context, "stopping toolkit context", [("name", name)]⟩
  | .inlineTaskPanicked context =>
    .ok ⟨.warn, .handOff, "inline toolkit task panicked", [("context", context)]⟩
  | .handOffTimedOut context timeout pending =>
    .ok ⟨.warn, .handOff, "hand-off to toolkit context timed out",
      [("context", context), ("timeout", timeout.render), ("pending", toString pending)]⟩
  | .queueFull context => .ok ⟨.warn, .handOff, "toolkit queue full", [("context", context)]⟩
  | .peerInvalidated => .ok ⟨.debug, .bridge, "accessible peer invalidated", []⟩
  | .adapterCreated node identity =>
    .ok ⟨.trace, .bridge, "adapter created",
      [("node", idText node), ("identity", identity.debugText)]⟩
  | .tableAttached node => .ok ⟨.debug, .bridge, "table attached", [("node", idText node)]⟩
  | .tableDetached node removed =>
    .ok ⟨.debug, .bridge, "table detached",
      [("node", idText node), ("removed", toString removed)]⟩
  | .queryUnavailable role node query cause =>
    .ok ⟨unavailableLevel cause, .bridge, "query unavailable",
      [("role", role.name), ("node", idText node), ("query", query), ("error", cause.message)]⟩
  | .becameRoot node =>
    .ok ⟨.info, .bridge, "table became the bridge root", [("node", idText node)]⟩
  | .unknownNode node attr =>
    .ok ⟨.debug, .bridge, "query for unknown node",
      [("node", idText node), ("attribute", attr.name)]⟩
  | .queryAnswered node role attr value =>
    .ok ⟨.trace, .bridge, "query answered",
      [("node", idText node), ("role", role.name), ("attribute", attr.name),
        ("value", value.debugText)]⟩
  | .rootUnavailable node =>
    .ok ⟨.debug, .bridge, "root unavailable, no tree update", [("node", idText node)]⟩
  | .updateBuilt node count =>
    .ok ⟨.debug, .bridge, "tree update built", [("node", idText node), ("count", toString count)]⟩
  | .childVanished node dropped =>
    .ok ⟨.debug, .bridge, "child vanished during tree update",
      [("node", idText node), ("dropped", toString dropped)]⟩
  | .actionIgnored node action known =>
    .ok ⟨.debug, .bridge, "ignoring action on read-only table adapter",
      [("node", idText node), ("action", action.name), ("known", Text.flag known)]⟩

end Event

end TableAccess
