import TableAccess.Tree

/-!
# Nodes and what they read

What all nodes share: a reading goes through the peer of the table, and one that fails is told once
and then counts as "no value".

## The model

* `Adapter.tryRead` — a reading with the reason when it fails.
* `Adapter.read` — the same with the reason told and dropped.
* `Adapter.parentNode` — the parent, looked up in the tree.
-/

namespace TableAccess.Adapter

variable {μ α : Type}

/-- What the node stands for. -/
def role (a : Adapter) : Role := a.identity.role

/-- The key of the table the node belongs to. -/
def tableKey (a : Adapter) : NodeKey := a.identity.tableKey

/-- A reading of the node's table. -/
def tryRead (a : Adapter) (reading : Inquiry (Except Unavailable α)) :
    Act μ (Except Unavailable α) :=
  Peer.query a.peer reading

/-- The value of a reading; why there is none is told under the name of the question. -/
def degrade (a : Adapter) (question : String) (result : Except Unavailable α) :
    Act μ (Option α) := do
  match result with
  | .ok value => pure (some value)
  | .error cause =>
    Act.tell (.queryUnavailable a.role a.key.toRaw question cause)
    pure none

/-- The value of a reading of the node's table, if it has one. -/
def read (a : Adapter) (question : String) (reading : Inquiry (Except Unavailable α)) :
    Act μ (Option α) := do
  a.degrade question (← a.tryRead reading)

/-- The tree the node was made in, while a bridge holds it. -/
def tree? (a : Adapter) (w : World μ) : Option Tree := (w.trees[a.tree]?).filter Tree.alive

/-- A bridge holds the tree the node was made in. -/
def hasTree (a : Adapter) : Act μ Bool := return (a.tree? (← get)).isSome

/-- The node under the parent's key. There is none once the table is known to be gone. -/
def parentNode (a : Adapter) : Act μ (Option Adapter) := do
  match a.parent with
  | none => pure none
  | some k =>
    if ← Peer.isInvalidated a.peer then pure none
    else return (a.tree? (← get)).bind (·.get? k)

/-- The node's table is still there, as far as can be told. -/
def isValid (a : Adapter) : Act μ Bool := Peer.isValid a.peer

end TableAccess.Adapter
