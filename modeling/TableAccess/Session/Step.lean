import TableAccess.Action
import TableAccess.Attribute
import TableAccess.Config.Basic
import TableAccess.Outline
import TableAccess.Table.Grid
import TableAccess.Table.Script

/-!
# Steps

What a session can be told to do. Contexts, bridges, tables, peers and held nodes go by names that
the session gives them. A step that hands steps over to a context carries them inside.

## The model

* `NodeRef` — a node by the name of a handle or by its id in a bridge's tree.
* `TableCall`, `NodeCall`, `TreeCall`, `BridgeCall`, `PeerCall`, `ContextCall` — what each kind of
  thing can be asked. A call that cannot be understood is kept as `malformed`, because the thing it
  is addressed to is looked up first.
* `Step` — one step; `Step.size` how many steps it holds, itself included.
-/

namespace TableAccess.Session

/-- Points at a node. -/
inductive NodeRef where
  /-- The node held under a name. -/
  | handle (name : String)
  /-- The node with an id in the tree of a bridge. -/
  | id (bridge : String) (id : NodeId)
  /-- Points nowhere. -/
  | missing
deriving DecidableEq, Repr

/-- How to make a table. -/
inductive TableSource where
  /-- An editable table with rows, bound to a context or not. -/
  | grid (name : String) (headers : List String) (rows : List (List String)) (owner : Option String)
  /-- A table that answers by a script. -/
  | script (s : Script)
  /-- Cannot be understood. -/
  | malformed

/-- What a table can be asked. -/
inductive TableCall where
  /-- One question. -/
  | ask (q : Question)
  /-- All that it shows. -/
  | contents
  /-- Whether it is bound to a context. -/
  | isBound
  /-- A change of its contents. -/
  | edit (e : Edit)
  /-- Its disposal. -/
  | dispose
  /-- A question that cannot be understood. -/
  | malformed
  /-- No question, and cannot be understood as a change either. -/
  | malformedEdit

/-- What a node can be asked. -/
inductive NodeCall where
  | key
  | identity
  | role
  | parent
  | grandparent
  | children
  | treeChildren
  | childCount
  | isValid
  | label
  | indexInParent
  /-- One attribute. -/
  | answer (attr : Attribute)
  /-- All attributes. -/
  | answers
  /-- All attributes as far as only the node's role carries them. -/
  | roleAnswers
  | build
  /-- Its key as that of a table and of a column. -/
  | kinds
  /-- Its debug text, once a context is idle. -/
  | debugText (context : String)
  | tryShape
  | shape
  | columnCount
  | rowCount
  /-- The node of a column, to be held under a name; or the column of a column node. -/
  | column (column : Option Nat) (handle : Option String)
  /-- The node of a row, to be held under a name; or the row of a row node. -/
  | row (row : Option Nat) (handle : Option String)
  /-- The node of a cell, to be held under a name. -/
  | cell (row column : Option Nat) (handle : Option String)
  | columns
  | rows
  | columnHeaders
  | tryRowIndex
  | rowIndexInTable
  | cells
  | tableKey
  | tryColumnNumber
  | columnNumber
  | tryHeaderText
  | headerText
  | columnSpan
  | position
  | rowIndex
  | columnIndex
  | tryText
  | text
  /-- Cannot be understood. -/
  | malformed
deriving DecidableEq, Repr

/-- What a tree can be asked. -/
inductive TreeCall where
  | size
  | tables
  /-- The node under a key. -/
  | get (node : NodeRef)
  /-- Take a table out. -/
  | detach (node : NodeRef)
  | prune
  | contextName
  | debugText
  /-- The outline of a node, or of all tables. -/
  | outline (options : Outline.Options) (node : Option NodeRef)
  /-- Cannot be understood. -/
  | malformed

/-- What a bridge can be asked. -/
inductive BridgeCall where
  | root
  /-- One attribute of a node. -/
  | query (node : NodeRef) (attr : Attribute)
  /-- All attributes of a node. -/
  | queryAll (node : NodeRef)
  /-- The update of the subtree under a node. -/
  | treeUpdate (node : NodeRef)
  /-- The update of one node. -/
  | nodeUpdate (node : NodeRef)
  | initialTree
  /-- An action asked of a node. -/
  | act (node : NodeRef) (action : Action)
  | debugText
  /-- Cannot be understood, though it points at a node. -/
  | malformedAt (node : NodeRef)
  /-- Cannot be understood. -/
  | malformed

/-- What to read through a peer. -/
inductive PeerReading where
  | columnCount
  | rowCount
  | tableName
  /-- A reading that finds the table gone. -/
  | stale
  /-- A reading that finds the row behind the last one missing. -/
  | outOfRange
  /-- A reading that panics. -/
  | panic
deriving DecidableEq, Repr

/-- What a peer can be asked. -/
inductive PeerCall where
  /-- Make it: a peer of a table that reads on a context. -/
  | make (table context : String)
  | isValid
  | isInvalidated
  /-- Whether it refers to a table. -/
  | refersTo (table : String)
  | contextName
  /-- Its debug text, once a context is idle. -/
  | debugText (context : String)
  /-- A reading. -/
  | query (reading : PeerReading)
  /-- Cannot be understood. -/
  | malformed

/-- What a context can be asked. -/
inductive ContextCall where
  | info
  | debugText
  | stop
  | join
  | stopAndJoin
  /-- Wait for the end, at most so long. -/
  | awaitEnd (millis : Nat)
  /-- Hand a task over that panics. -/
  | invokePanic (bound : Option Duration)
  /-- Post a task that panics. -/
  | postPanic
  /-- Post a task that keeps the thread busy until it is released. -/
  | gate
  | release
  /-- Check that this is the context's thread, while checks are on. -/
  | check (message : String)
  /-- Check that this is the context's thread. -/
  | assert (message : String)
  /-- Forget the context's name, and with it what keeps its thread busy. -/
  | drop
  /-- Hand over, from so many threads at once, so many tasks each. -/
  | count (threads each : Nat)
  /-- Cannot be understood. -/
  | malformed
deriving DecidableEq, Repr

/-- Over which tree a bridge is made. -/
inductive TreeSource where
  /-- The tree of another bridge. -/
  | ofBridge (bridge : String)
  /-- A new tree, read on a context. -/
  | fresh (context : String)
deriving DecidableEq, Repr

/-- One step. -/
inductive Step where
  /-- Make a table, in place of the one with the name. -/
  | newTable (table : String) (source : TableSource)
  /-- Bind a table to a context. -/
  | bind (table context : String)
  /-- Drop a table. -/
  | dropTable (table : String)
  /-- Ask a table. -/
  | table (table : String) (call : TableCall)
  /-- Attach a table through a bridge, or to its tree only. -/
  | attach (table bridge : String) (toTree : Bool) (handle : Option String)
  /-- Hold a node under a name, if one is given. -/
  | hold (node : NodeRef) (handle : Option String)
  /-- Let go of a node. -/
  | dropHandle (handle : String)
  /-- Make a bridge, in place of the one with the name. -/
  | newBridge (bridge : String) (source : TreeSource)
  /-- Drop a bridge. -/
  | dropBridge (bridge : String)
  /-- Start a context with settings, or else with the defaults. -/
  | newContext (context : String) (settings : Option (List Setting))
  /-- Switch affinity checks on or off, or leave them, and tell how they are. -/
  | checks (on? : Option Bool)
  /-- Ask a node. -/
  | node (node : NodeRef) (call : NodeCall)
  /-- Ask a node from so many threads at once. -/
  | nodeAtOnce (node : NodeRef) (call : NodeCall) (threads : Nat)
  /-- Ask the tree of a bridge. -/
  | tree (bridge : String) (call : TreeCall)
  /-- Ask a bridge. -/
  | bridge (bridge : String) (call : BridgeCall)
  /-- Ask a peer. -/
  | peer (peer : String) (call : PeerCall)
  /-- Ask a context. -/
  | context (context : String) (call : ContextCall)
  /-- Have a context carry out steps, and wait. -/
  | invoke (context : String) (steps : List Step) (bound : Option Duration)
  /-- Have a context carry out steps, without waiting. -/
  | post (context : String) (steps : List Step)
  /-- Take the reports of posted steps. -/
  | takePosted (context : String)
  /-- Carry out a step on the thread of a context. -/
  | onToolkit (context : String) (step : Step)
  /-- Cannot be understood. -/
  | malformed

namespace Step

instance : Inhabited Step := ⟨.malformed⟩

mutual

/-- How many steps a step holds, itself included. -/
def size : Step → Nat
  | .invoke _ steps _ => sizeAll steps + 1
  | .post _ steps => sizeAll steps + 1
  | .onToolkit _ step => step.size + 1
  | _ => 1

/-- How many steps are held by a list of them. -/
def sizeAll : List Step → Nat
  | [] => 0
  | step :: rest => step.size + sizeAll rest

end

end Step

end TableAccess.Session
