import TableAccess.HandOff

/-!
# Peers

A peer refers to a table without keeping it alive and sends every reading over to its context. The
first time the table is found dropped or disposed of the peer is invalidated, once and for all: from
then on it answers at once, without a hand-off. A context that does not answer says nothing about
the table and changes nothing.

## The model

* `Peer.query` — a reading of the table, made on its context in one hand-off.
* `Peer.isValid` — whether the table is still there, as far as can be told.
-/

namespace TableAccess.Peer

variable {μ α : Type}

/-- Remembers that the table is gone. -/
def invalidate (p : PeerId) : Act μ Unit := do
  match (← get).peers[p]? with
  | none => pure ()
  | some peer =>
    unless peer.invalidated do
      modify fun w => { w with peers := w.peers.modify p ({ · with invalidated := true }) }
      Act.tell .peerInvalidated

/-- The table was found gone before. -/
def isInvalidated (p : PeerId) : Act μ Bool := do
  match (← get).peers[p]? with
  | none => pure true
  | some peer => pure peer.invalidated

/-- What a hand-off of a reading came to. -/
def flatten : Except Unavailable (Option (Except Unavailable α)) → Except Unavailable α
  | .error u => .error u
  | .ok none => .error .stalePeer
  | .ok (some r) => r

/-- Reads the table on its context. Liveness and reading belong to the same hand-off. -/
def query (p : PeerId) (read : Inquiry (Except Unavailable α)) : Act μ (Except Unavailable α) := do
  match (← get).peers[p]? with
  | none => pure (.error .stalePeer)
  | some peer =>
    if peer.invalidated then pure (.error .stalePeer)
    else
      let outcome ← handOff peer.context none (consult peer.table (Reading.ofLive read))
      match flatten outcome with
      | .error .stalePeer =>
        invalidate p
        pure (.error .stalePeer)
      | result => pure result

/-- Whether the table is still there. When the context does not answer, what is known so far. -/
def isValid (p : PeerId) : Act μ Bool := do
  let w ← get
  match w.peers[p]? with
  | none => pure false
  | some peer =>
    if peer.invalidated then pure false
    else if (w.table? peer.table).isNone then
      invalidate p
      pure false
    else
      match ← query p Reading.nothing with
      | .ok _ => pure true
      | .error .stalePeer => pure false
      | .error _ => return !(← isInvalidated p)

end TableAccess.Peer
