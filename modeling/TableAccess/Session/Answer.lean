import TableAccess.Config.Basic
import TableAccess.Event
import TableAccess.Table.Grid
import TableAccess.Table.Reading
import TableAccess.Update

/-!
# Answers

What the steps of a session answer: a value of a known shape, or the trouble that kept the step from
having one.

## The model

* `Answer` — a value.
* `Trouble` — a reading without a value, a panic, a configuration that cannot be run with, or a
  complaint about the step itself.
* `Outcome` — a value or a trouble; `Report` — an outcome, or the reports of the steps inside a
  step.
* `Result` — a report, and what was told meanwhile.
-/

namespace TableAccess.Session

/-- What is wrong with a step itself. -/
inductive Complaint where
  /-- The step cannot be understood. -/
  | badInput
  /-- No context has the name. -/
  | noContext
  /-- No bridge has the name. -/
  | noBridge
  /-- No table has the name. -/
  | noTable
  /-- No handle has the name. -/
  | noHandle
  /-- The id names no node of the tree. -/
  | noNode
  /-- No peer has the name. -/
  | noPeer
  /-- The table or node is of a kind that cannot answer. -/
  | wrongKind
  /-- The step would never end. -/
  | wouldBlock
  /-- The context is gated already. -/
  | alreadyGated
deriving DecidableEq, Repr

/-- The name of a complaint. -/
def Complaint.name : Complaint → String
  | .badInput => "BadInput"
  | .noContext => "NoContext"
  | .noBridge => "NoBridge"
  | .noTable => "NoTable"
  | .noHandle => "NoHandle"
  | .noNode => "NoNode"
  | .noPeer => "NoPeer"
  | .wrongKind => "WrongKind"
  | .wouldBlock => "WouldBlock"
  | .alreadyGated => "AlreadyGated"

/-- What kept a step from having a value. -/
inductive Trouble where
  /-- A reading has no value. -/
  | unavailable (cause : Unavailable)
  /-- A panic on the thread that carried the step out. -/
  | panicked (panic : Panic)
  /-- A configuration cannot be run with. -/
  | misconfigured (error : ConfigError)
  /-- The step itself is at fault. -/
  | complaint (c : Complaint)
deriving DecidableEq, Repr

/-- What can be told about a context. -/
structure ContextInfo where
  /-- The thread's name. -/
  name : String
  /-- How long a hand-off waits. -/
  timeout : Duration
  /-- Tasks are accepted. -/
  running : Bool
  /-- The question was asked on the context's own thread. -/
  onThread : Bool
  /-- The context's affinity is that of the thread that asked. -/
  sameAffinity : Bool
  /-- How many accepted tasks have not finished. -/
  pending : Nat
deriving DecidableEq, Repr

/-- A value. -/
inductive Answer where
  /-- Nothing to say. -/
  | nothing
  /-- Yes or no. -/
  | flag (b : Bool)
  /-- A number, if there is one. -/
  | count (n : Option Nat)
  /-- A text, if there is one. -/
  | text (s : Option String)
  /-- A key, if there is one. -/
  | key (k : Option NodeKey)
  /-- Keys. -/
  | keys (ks : List NodeKey)
  /-- What a node stands for. -/
  | identity (i : Identity)
  /-- A role. -/
  | role (r : Role)
  /-- The role and key of a node, if there is one. -/
  | node (n : Option (Role × NodeKey))
  /-- The roles and keys of nodes. -/
  | nodes (ns : List (Role × NodeKey))
  /-- The value of an attribute. -/
  | value (v : AttributeValue)
  /-- The values of attributes. -/
  | values (vs : List (Attribute × AttributeValue))
  /-- A node written out, if it is available. -/
  | treeNode (n : Option TreeNode)
  /-- An update, if there is one. -/
  | update (u : Option Update)
  /-- Name and counts, if available. -/
  | shape (s : Option Shape)
  /-- Texts, each of which may be missing. -/
  | texts (ts : List (Option String))
  /-- A row and a column. -/
  | position (row column : Nat)
  /-- The node's key as that of a table, and as that of a column. -/
  | kinds (table column : Option NodeKey)
  /-- All that a table shows. -/
  | contents (c : Contents)
  /-- What an edit answers, and all that the table shows after it. -/
  | edited (reply : EditReply) (c : Contents)
  /-- How many nodes there are. -/
  | size (n : Nat)
  /-- What can be told about a context. -/
  | context (info : ContextInfo)
  /-- How many tasks were done, and how many of them on the context's own thread. -/
  | tally (done onThread : Nat)
deriving DecidableEq, Repr

/-- A value or a trouble. -/
inductive Outcome where
  /-- A value. -/
  | answer (a : Answer)
  /-- What kept the step from having one. -/
  | trouble (t : Trouble)
deriving DecidableEq, Repr

/-- What a step reports. -/
inductive Report where
  /-- One outcome. -/
  | outcome (o : Outcome)
  /-- The reports of the steps inside. -/
  | several (reports : List Report)
  /-- How many different outcomes there were, and the first of them. -/
  | agreement (distinct : Nat) (first : Option Outcome)

namespace Report

/-- The report of a trouble. -/
def ofTrouble (t : Trouble) : Report := .outcome (.trouble t)

/-- The report of a complaint. -/
def ofComplaint (c : Complaint) : Report := .ofTrouble (.complaint c)

end Report

/-- What a step of a session comes to: its report, and what it told on the thread that carried it
out. A step that could not be handed over told nothing that anyone heard. -/
structure Result where
  /-- The report. -/
  report : Report
  /-- What was told, if it was heard. -/
  told : Option (List Event)

end TableAccess.Session
