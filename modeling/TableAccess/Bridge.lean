import TableAccess.Update

/-!
# Bridges

A bridge answers a screen reader on behalf of a tree. The first table attached through it is its
root, until that table leaves the tree; then the next one attached is.

## The model

* `Bridge.attach` — a table attached through a bridge.
* `Bridge.root?` — the root, while it is in the tree.
* `Bridge.query` — one attribute of the node with an id.
* `Bridge.treeUpdate`, `Bridge.nodeUpdate`, `Bridge.initialTree` — updates.
-/

namespace TableAccess.Bridge

variable {μ : Type}

/-- A bridge. -/
def getBridge (b : BridgeId) : Act μ Bridge := do
  match (← get).bridges[b]? with
  | some bridge => pure bridge
  | none => throw ⟨"no such bridge"⟩

/-- The node with an id, if the id names one. -/
def node? (b : BridgeId) (id : NodeId) : Act μ (Option Adapter) := do
  return (← getTree (← getBridge b).tree).get? (.ofRaw id)

/-- The root, while it is in the tree. -/
def root? (b : BridgeId) : Act μ (Option NodeKey) := do
  let bridge ← getBridge b
  let tree ← getTree bridge.tree
  pure (bridge.root.filter fun k => (tree.get? k).isSome)

/-- Attaches a table; it becomes the root if there is none in the tree. -/
def attach (b : BridgeId) (table : TableId) : Act μ Adapter := do
  let a ← attachTable (← getBridge b).tree table
  if (← root? b).isNone then
    Act.tell (.becameRoot a.key.toRaw)
    modify fun w => { w with bridges := w.bridges.modify b ({ · with root := some a.key }) }
  pure a

/-- One attribute of the node with an id. -/
def query (b : BridgeId) (id : NodeId) (attr : Attribute) : Act μ AttributeValue := do
  Act.tell (.span .query)
  match ← node? b id with
  | none =>
    Act.tell (.unknownNode id attr)
    pure .none
  | some a =>
    let value ← a.answer attr
    Act.tell (.queryAnswered id a.role attr value)
    pure value

/-- The full update of the subtree under a key. -/
def treeUpdate (b : BridgeId) (k : NodeKey) : Act μ (Option Update) := do
  buildTreeUpdate (← getBridge b).tree k

/-- The update of one node, with the focus on the root. -/
def nodeUpdate (b : BridgeId) (k : NodeKey) : Act μ (Option Update) := do
  match ← buildNodeUpdate (← getBridge b).tree none k with
  | none => pure none
  | some update => return some { update with focus := ((← root? b).getD k).toRaw }

/-- The full update of the root. -/
def initialTree (b : BridgeId) : Act μ (Option Update) := do
  match ← root? b with
  | none => pure none
  | some k => treeUpdate b k

/-- An action asked of the node with an id. Nodes only read, so it is told and nothing else. -/
def ignoreAction (b : BridgeId) (id : NodeId) (action : Action) : Act μ Unit := do
  Act.tell (.actionIgnored id action (← node? b id).isSome)

end TableAccess.Bridge
