import TableAccess.Adapter.Node

/-!
# Outlines

A tree of nodes as indented text for people, one line for each node. Every line is read from the
table anew, so an outline shows the tables as they are now. Reading and writing are kept apart: the
lines are collected first, each with its place in the tree, and then written in a style.

## The model

* `Line` — what one line says, and where it stands: for each level above, whether more siblings
  follow there.
* `linesUnder` — the lines of a node and all below it, in order.
* `Line.render` — the text of one line.
* `outlineAll`, `outlineUnder` — the outline of all tables of a tree, and of one node.
-/

namespace TableAccess

namespace Outline

/-- How branches are drawn. -/
inductive Style where
  /-- With plain characters. -/
  | ascii
  /-- With box-drawing characters. -/
  | unicode
  /-- By indentation alone. -/
  | compact
deriving DecidableEq, Repr

/-- What an outline shows. -/
structure Options where
  /-- How branches are drawn. -/
  style : Style
  /-- Keys are shown. -/
  showKeys : Bool
  /-- Positions are shown. -/
  showIndices : Bool
  /-- Nodes whose table is gone are marked. -/
  showValidity : Bool
  /-- How many levels below the top are shown; all without it. -/
  maxDepth : Option Nat
deriving DecidableEq, Repr

namespace Options

/-- Everything is shown. -/
def default : Options := ⟨.unicode, true, true, true, none⟩

/-- Roles and labels alone are shown. -/
def minimal : Options :=
  { default with showKeys := false, showIndices := false, showValidity := false }

/-- Nodes this far below the top are left out. -/
def Hides (o : Options) (depth : Nat) : Prop := ∃ max, o.maxDepth = some max ∧ max < depth

instance (o : Options) (depth : Nat) : Decidable (o.Hides depth) :=
  match h : o.maxDepth with
  | none => isFalse fun ⟨_, h', _⟩ => by simp [h] at h'
  | some max =>
    if lt : max < depth then isTrue ⟨max, h, lt⟩
    else isFalse fun ⟨_, h', lt'⟩ => by rw [h] at h'; exact lt (Option.some.inj h' ▸ lt')

end Options

/-- One block of the drawing in front of a line. -/
inductive Block where
  /-- A branch passes by. -/
  | pipe
  /-- Nothing passes by. -/
  | blank
  /-- The branch of a node with more siblings below. -/
  | tee
  /-- The branch of the last sibling. -/
  | elbow
deriving DecidableEq, Repr

/-- The text of a block. -/
def Style.block : Style → Block → String
  | .ascii, .pipe => "|   "
  | .ascii, .blank => "    "
  | .ascii, .tee => "+-- "
  | .ascii, .elbow => "`-- "
  | .unicode, .pipe => "│   "
  | .unicode, .blank => "    "
  | .unicode, .tee => "├── "
  | .unicode, .elbow => "└── "
  | .compact, _ => "  "

/-- What one line says and where it stands. -/
structure Line where
  /-- For each level below the top, from the outside in: more siblings follow there. -/
  path : List Bool
  /-- The node's role. -/
  role : Role
  /-- Its label. -/
  label : Option String
  /-- Its position. -/
  index : Option Nat
  /-- Its id, when keys are shown. -/
  id : Option NodeId
  /-- It is marked as gone. -/
  gone : Bool
deriving DecidableEq, Repr

/-- The blocks in front of a line. -/
def blocks : List Bool → List Block
  | [] => []
  | [more] => [if more then .tee else .elbow]
  | more :: rest => (if more then .pipe else .blank) :: blocks rest

/-- The words of a line. -/
def Line.words (l : Line) : String :=
  l.role.name ++
    (match l.label with
      | some label => " " ++ Text.quote label
      | none => "") ++
    (match l.index with
      | some index => " #" ++ toString index
      | none => "") ++
    (match l.id with
      | some id => " [" ++ toString id.toNat ++ "]"
      | none => "") ++
    if l.gone then " (invalid)" else ""

/-- The text of a line. -/
def Line.render (style : Style) (l : Line) : String :=
  String.join ((blocks l.path).map style.block) ++ l.words ++ "\n"

/-- The text of lines. -/
def render (style : Style) (lines : List Line) : String :=
  String.join (lines.map (Line.render style))

variable {μ : Type}

/-- The line of a node. -/
def line (o : Options) (path : List Bool) (a : Adapter) : Act μ Line := do
  let label ← a.label
  let index ← if o.showIndices then a.indexInParent else pure none
  let gone ← if o.showValidity then Bool.not <$> a.isValid else pure false
  pure ⟨path, a.role, label, index, if o.showKeys then some a.key.toRaw else none, gone⟩

/-- Items in order, each with whether more follow. -/
def withMore {α : Type} : List α → List (Bool × α)
  | [] => []
  | a :: rest => (!rest.isEmpty, a) :: withMore rest

/-- The lines of a node and of all below it, at most so many levels of them. -/
def linesUnder (o : Options) : (depth : Nat) → List Bool → Adapter → Act μ (List Line)
  | 0, _, _ => pure []
  | depth + 1, path, a => do
    if o.Hides path.length then pure []
    else
      let first ← line o path a
      let children ← a.treeChildren
      let below ← Act.each (withMore children) fun (more, child) =>
        linesUnder o depth (path ++ [more]) child
      pure (first :: below.flatten)

end Outline

variable {μ : Type}

/-- The outline of a node and all below it. -/
def outlineUnder (o : Outline.Options) (a : Adapter) : Act μ String := do
  return Outline.render o.style (← Outline.linesUnder o Adapter.levels [] a)

/-- The head of the outline of a tree with so many nodes and tables. -/
def outlineHead (nodes tables : Nat) : String :=
  "Adapter Tree (" ++ toString nodes ++ " adapters):\n" ++ if tables = 0 then "  (empty)\n" else ""

/-- The outline of all tables of a tree. -/
def outlineAll (o : Outline.Options) (t : TreeId) : Act μ String := do
  let tree ← getTree t
  let parts ← Act.each tree.tables (outlineUnder o)
  pure (outlineHead tree.size tree.tables.length ++ String.join parts)

end TableAccess
