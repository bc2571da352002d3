import TableAccess.Duration
import TableAccess.Text.Quoted
import TableAccess.Text.Record

/-!
# Why a reading has no value

A reading of a table fails for one of a few causes. Some say something about the table; the others
are failures of the context that should have answered, and say nothing about the table.
-/

namespace TableAccess

/-- What an index counts. -/
inductive Axis where
  /-- A column of a table. -/
  | column
  /-- A row of a table. -/
  | row
deriving DecidableEq, Repr

namespace Axis

/-- The name in messages. -/
def name : Axis → String
  | .column => "column"
  | .row => "row"

/-- The name in debug texts. -/
def debugText : Axis → String
  | .column => "Column"
  | .row => "Row"

end Axis

/-- Why a reading has no value. -/
inductive Unavailable where
  /-- The table was dropped or disposed. -/
  | stalePeer
  /-- The index does not fit the table as it is now. -/
  | indexOutOfRange (axis : Axis) (index count : Nat)
  /-- The context did not answer in time. -/
  | timedOut (bound : Duration)
  /-- The context was stopped. -/
  | contextStopped
  /-- The context's queue had no room. -/
  | queueFull
  /-- The task panicked, or was dropped without running. -/
  | handOffPanicked
  /-- The context's thread could not be started. -/
  | spawnFailed (name source : String)
deriving DecidableEq, Repr

namespace Unavailable

/-- The name of the cause. -/
def kind : Unavailable → String
  | .stalePeer => "StalePeer"
  | .indexOutOfRange .. => "IndexOutOfRange"
  | .timedOut _ => "CrossContextTimeout"
  | .contextStopped => "ContextStopped"
  | .queueFull => "QueueFull"
  | .handOffPanicked => "HandoffPanicked"
  | .spawnFailed .. => "Spawn"

/-- The message for people. -/
def message : Unavailable → String
  | .stalePeer => "accessible peer is stale (table dropped or disposed)"
  | .indexOutOfRange axis index count =>
    axis.name ++ " index " ++ toString index ++ " out of range (current count " ++
      toString count ++ ")"
  | .timedOut bound => "toolkit context did not answer within " ++ bound.render
  | .contextStopped => "toolkit context has been stopped"
  | .queueFull => "toolkit context queue is full"
  | .handOffPanicked => "hand-off panicked on the toolkit thread"
  | .spawnFailed name source =>
    "failed to spawn toolkit context thread '" ++ name ++ "': " ++ source

/-- The debug text: the name of the cause and its fields. -/
def debugText (u : Unavailable) : String :=
  match u with
  | .indexOutOfRange axis index count =>
    Text.record u.kind
      [("kind", axis.debugText), ("index", toString index), ("count", toString count)]
  | .timedOut bound => Text.record u.kind [("timeout", bound.render)]
  | .spawnFailed name source =>
    Text.record u.kind
      [("name", Text.quote name),
        ("source", Text.record "Custom" [("kind", "Other"), ("error", Text.quote source)])]
  | _ => u.kind

/-- The context was slow, stopped, full or hit by a panic; the table itself is not to blame. -/
def isContextFailure : Unavailable → Bool
  | .timedOut _ | .contextStopped | .queueFull | .handOffPanicked => true
  | .stalePeer | .indexOutOfRange .. | .spawnFailed .. => false

end Unavailable

end TableAccess
