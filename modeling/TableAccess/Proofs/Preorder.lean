import Mathlib.Data.List.Nodup
import Mathlib.Data.List.Pairwise
import Mathlib.Data.List.Perm.Basic
import TableAccess.Update

/-!
# Lists in preorder

A forest written down in preorder: each node before its children, and all that is below one child
before the next. Every id in such a list is that of a root or was listed as a child; if none occurs
twice, it was listed once, by one node. Where some of the nodes could not be had, the rest are still in
preorder once those are taken out of the lists of children.

## The model

* `Preorder` — a list is the preorder of a forest with these roots.
* `Preorder.perm` — its ids are the roots and all children that are listed.
* `Attempt` — what came of each node; `built` — the nodes that were had; `written` — those with only
  some of their children.
* `Preorder.written` — they are in preorder again.
-/

namespace TableAccess

variable {β : Type} {children : β → List NodeId} {ids : List NodeId} {nodes : List (NodeId × β)}

/-- A list is the preorder of a forest: its roots have these ids, in order, and below each node comes
the preorder of its children. -/
inductive Preorder (children : β → List NodeId) : List NodeId → List (NodeId × β) → Prop where
  /-- A forest without trees. -/
  | nil : Preorder children [] []
  /-- A tree, and the forest behind it. -/
  | node {id : NodeId} {b : β} {ids : List NodeId} {below rest : List (NodeId × β)}
      (inside : Preorder children (children b) below) (behind : Preorder children ids rest) :
    Preorder children (id :: ids) ((id, b) :: (below ++ rest))

namespace Preorder

/-- One tree. -/
theorem tree {id : NodeId} {b : β} {below : List (NodeId × β)}
    (inside : Preorder children (children b) below) :
    Preorder children [id] ((id, b) :: below) := by
  have one : Preorder children [id] ((id, b) :: (below ++ [])) := node inside .nil
  rwa [List.append_nil] at one

/-- One tree and the forest behind it. -/
theorem append {id : NodeId} {tree rest : List (NodeId × β)} (h : Preorder children [id] tree)
    (behind : Preorder children ids rest) : Preorder children (id :: ids) (tree ++ rest) := by
  cases h with
  | node inside last =>
    cases last
    rw [List.append_nil]
    exact .node inside behind

/-- The ids are the roots and the children of all nodes. -/
theorem perm (h : Preorder children ids nodes) :
    (nodes.map Prod.fst).Perm (ids ++ nodes.flatMap fun n => children n.2) := by
  induction h with
  | nil => exact .refl _
  | @node id b ids below rest inside behind ih ih' =>
    simp only [List.map_cons, List.map_append, List.flatMap_cons, List.flatMap_append,
      List.cons_append]
    refine .cons id ((ih.append ih').trans ?_)
    simpa using List.perm_append_comm_assoc
      (children b ++ below.flatMap fun n => children n.2) ids (rest.flatMap fun n => children n.2)

/-- The children of its nodes are in the list. -/
theorem closed (h : Preorder children ids nodes) {n : NodeId × β} (hn : n ∈ nodes) {c : NodeId}
    (hc : c ∈ children n.2) : c ∈ nodes.map Prod.fst :=
  h.perm.mem_iff.2 (List.mem_append_right ids (List.mem_flatMap.2 ⟨n, hn, hc⟩))

end Preorder

/-! ### Nodes that could not be had -/

/-- The id of a node that was to be written out, and the node if it was. -/
abbrev Attempt := NodeId × Option TreeNode

/-- The children that a node listed, if it was written out. -/
def Attempt.listed (result : Option TreeNode) : List NodeId :=
  (result.map TreeNode.children).getD []

/-- A node with those of its children that `kept` says. -/
def TreeNode.keep (kept : NodeId → Bool) (n : TreeNode) : TreeNode :=
  { n with children := n.children.filter kept }

/-- The nodes that were written out, as they were. -/
def built (attempts : List Attempt) : List (NodeId × TreeNode) :=
  attempts.filterMap fun (id, result) => result.map fun n => (id, n)

/-- The nodes that were written out, each with those of its children that `kept` says. -/
def written (kept : NodeId → Bool) (attempts : List Attempt) : List (NodeId × TreeNode) :=
  (built attempts).map fun (id, n) => (id, n.keep kept)

theorem built_append (attempts attempts' : List Attempt) :
    built (attempts ++ attempts') = built attempts ++ built attempts' := List.filterMap_append

theorem mem_built {attempts : List Attempt} {id : NodeId} {n : TreeNode} :
    (id, n) ∈ built attempts ↔ (id, some n) ∈ attempts := by
  simp [built]

/-- What was written out is in preorder again when those that were not are taken out. -/
theorem Preorder.written {attempts : List Attempt} {kept : NodeId → Bool}
    (h : Preorder Attempt.listed ids attempts)
    (had : ∀ {id result}, (id, result) ∈ attempts → kept id = result.isSome) :
    Preorder TreeNode.children (ids.filter kept) (TableAccess.written kept attempts) := by
  induction h with
  | nil => exact .nil
  | @node id result ids below rest inside behind ih ih' =>
    have own : kept id = result.isSome := had List.mem_cons_self
    have ih := ih fun mem => had (List.mem_cons_of_mem _ (List.mem_append_left rest mem))
    have ih' := ih' fun mem => had (List.mem_cons_of_mem _ (List.mem_append_right below mem))
    cases result with
    | none =>
      cases inside
      rw [List.filter_cons_of_neg (by simp [own])]
      exact ih'
    | some n =>
      rw [List.filter_cons_of_pos (by simp [own])]
      show Preorder _ _ ((id, n.keep kept) :: TableAccess.written kept (below ++ rest))
      rw [TableAccess.written, built_append, List.map_append]
      exact .node ih ih'

end TableAccess
