import TableAccess.Bridge

/-!
# Debug texts

The texts by which developers tell contexts, peers, trees, bridges and nodes apart.
-/

namespace TableAccess

/-- The debug text of a context. -/
def Context.debugText {τ : Type} (c : Context τ) : String :=
  Text.record "ToolkitContext"
    [("name", Text.quote c.name), ("running", Text.flag c.running),
      ("pending_tasks", toString c.pending)]

variable {μ : Type}

namespace World

/-- The debug text of a context. -/
def contextText (w : World μ) (c : ContextId) : String :=
  ((w.contexts[c]?).map Context.debugText).getD ""

/-- The debug text of a peer. -/
def peerText (w : World μ) (p : PeerId) : String :=
  match w.peers[p]? with
  | none => ""
  | some peer =>
    Text.record "PeerAccessor"
      [("invalidated", Text.flag peer.invalidated), ("context", w.contextText peer.context)]

/-- The debug text of a node. -/
def nodeText (w : World μ) (a : Adapter) : String :=
  let base :=
    ("base", Text.record "AdapterBase"
      [("key", a.key.debugText), ("identity", a.identity.debugText),
        ("parent", Text.option (a.parent.map NodeKey.debugText)),
        ("peer", w.peerText a.peer), ("tree", "(Weak)")])
  match a.identity with
  | .table _ => Text.wrapped "Table" (Text.record "TableAdapter" [base])
  | .row _ row => Text.wrapped "Row" (Text.record "RowAdapter" [base, ("row", toString row)])
  | .column _ column =>
    Text.wrapped "Column" (Text.record "ColumnAdapter" [base, ("column", toString column)])
  | .cell _ row column =>
    Text.wrapped "Cell"
      (Text.record "CellAdapter" [base, ("row", toString row), ("column", toString column)])

end World

/-- The debug text of a tree. -/
def Tree.debugText (t : Tree) : String :=
  Text.record "AdapterTree" [("shared", Text.record "TreeShared" [("nodes", toString t.size)])]

/-- The debug text of a bridge over a tree. -/
def Bridge.debugText (b : Bridge) (tree : Tree) : String :=
  Text.record "AccessibilityBridge"
    [("tree", tree.debugText),
      ("root", Text.record "Mutex" [("data", Text.option (b.root.map NodeKey.debugText))])]

end TableAccess
