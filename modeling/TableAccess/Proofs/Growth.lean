import TableAccess.Proofs.Nodes

/-!
# Trees that grow

A node that is asked for is in its tree, or is made under the next key. Whoever asks for the same nodes
in the same order makes the same tree of it, if nobody else does anything to the tree meanwhile; and a
tree that has them all stays as it is.

## The model

* `Tree.Gets` — the node of one identity is found or made.
* `Tree.Grows` — nodes are found or made, one after the other, while others do to the tree what they
  may.
* `Grows.unique` — when nobody else does anything; `Grows.others_of_has` — when all nodes are there.
-/

namespace TableAccess.Tree

variable {E : Tree → Tree → Prop} {t : TreeId} {peer : PeerId} {tree tree₁ tree₂ tree₃ : Tree}
  {a b : Adapter} {i j : Identity} {k parent : NodeKey} {parts parts' : List Identity}

/-- The node of an identity is in a tree, or is made under the next key. -/
inductive Gets (t : TreeId) (peer : PeerId) (tree : Tree) (i : Identity) : Adapter → Tree → Prop where
  /-- It is there. -/
  | found {a : Adapter} (h : tree.find? i = some a) : Gets t peer tree i a tree
  /-- It is made. -/
  | made {k parent : NodeKey} (free : tree.find? i = none) (next : tree.nodes.nextKey? = some k)
      (isParent : tree.IsParent i parent) :
    Gets t peer tree i ⟨k, i, some parent, peer, t⟩ (tree.add ⟨k, i, some parent, peer, t⟩)

/-- The tree tells the parent of a node. -/
theorem IsParent.unique {p q : NodeKey} (h : tree.IsParent i p) (h' : tree.IsParent i q) : p = q := by
  cases h with
  | row | column =>
    cases h'
    rfl
  | cell ha =>
    cases h' with
    | cell hb =>
      rw [ha] at hb
      cases hb
      rfl

namespace Gets

theorem unique (h : tree.Gets t peer i a tree₁) (h' : tree.Gets t peer i b tree₂) :
    a = b ∧ tree₁ = tree₂ := by
  cases h with
  | found found =>
    cases h' with
    | found found' =>
      rw [found] at found'
      exact ⟨Option.some.inj found', rfl⟩
    | made free =>
      rw [found] at free
      cases free
  | made free next isParent =>
    cases h' with
    | found found =>
      rw [found] at free
      cases free
    | made _ next' isParent' =>
      rw [next] at next'
      cases next'
      cases isParent.unique isParent'
      exact ⟨rfl, rfl⟩

theorem coherent (h : tree.Gets t peer i a tree₁) (coherent : tree.Coherent t) :
    tree₁.Coherent t := by
  cases h with
  | found => exact coherent
  | made free next isParent => exact coherent.add next free rfl (.inr ⟨_, rfl, isParent⟩)

theorem alive (h : tree.Gets t peer i a tree₁) : tree₁.alive = tree.alive := by
  cases h <;> rfl

/-- The tree has the node. -/
theorem find? (h : tree.Gets t peer i a tree₁) (coherent : tree.Coherent t) :
    tree₁.find? i = some a := by
  cases h with
  | found found => exact found
  | made free next => rw [coherent.indexed.find?_add next free, if_pos rfl]

/-- The nodes that were there stay. -/
theorem keeps (h : tree.Gets t peer i a tree₁) (coherent : tree.Coherent t)
    (hb : tree.find? j = some b) : tree₁.find? j = some b := by
  cases h with
  | found => exact hb
  | made free next =>
    rw [coherent.indexed.find?_add next free, if_neg, hb]
    rintro rfl
    rw [hb] at free
    cases free

/-- A node of the tree was there, or has just been made. -/
theorem stored (h : tree.Gets t peer i a tree₁) (coherent : tree.Coherent t)
    (hb : tree₁.get? k = some b) : tree.get? k = some b ∨ b.peer = peer := by
  cases h with
  | found => exact .inl hb
  | made free next =>
    rw [coherent.indexed.get?_add next] at hb
    split at hb
    · cases hb
      exact .inr rfl
    · exact .inl hb

end Gets

/-- The nodes of some parts are found or made, one after the other. Before and after each the others do
to the tree what `E` says. -/
inductive Grows (E : Tree → Tree → Prop) (t : TreeId) (peer : PeerId) :
    List Identity → Tree → Tree → Prop where
  /-- No node is asked for. -/
  | still {tree tree₁ : Tree} (others : E tree tree₁) : Grows E t peer [] tree tree₁
  /-- A node is asked for, and then the rest. -/
  | next {tree tree₁ tree₂ tree₃ : Tree} {i : Identity} {a : Adapter} {parts : List Identity}
      (others : E tree tree₁) (gets : tree₁.Gets t peer i a tree₂)
      (rest : Grows E t peer parts tree₂ tree₃) : Grows E t peer (i :: parts) tree tree₃

namespace Grows

/-- Others come before. -/
theorem after (trans : ∀ {tree₁ tree₂ tree₃ : Tree}, E tree₁ tree₂ → E tree₂ tree₃ → E tree₁ tree₃)
    (others : E tree tree₁) (h : tree₁.Grows E t peer parts tree₂) :
    tree.Grows E t peer parts tree₂ := by
  cases h with
  | still others' => exact .still (trans others others')
  | next others' gets rest => exact .next (trans others others') gets rest

/-- First some nodes, then others. -/
theorem append (trans : ∀ {tree₁ tree₂ tree₃ : Tree}, E tree₁ tree₂ → E tree₂ tree₃ → E tree₁ tree₃)
    (h : tree.Grows E t peer parts tree₁) (h' : tree₁.Grows E t peer parts' tree₂) :
    tree.Grows E t peer (parts ++ parts') tree₂ := by
  induction h with
  | still others => exact h'.after trans others
  | next others gets rest ih => exact .next others gets (ih h')

/-- When the others do nothing, what is asked for decides what becomes of the tree. -/
theorem unique (h : tree.Grows Eq t peer parts tree₁) (h' : tree.Grows Eq t peer parts tree₂) :
    tree₁ = tree₂ := by
  induction h with
  | still same =>
    cases h' with
    | still same' => exact same.symm.trans same'
  | next same gets rest ih =>
    cases h' with
    | next same' gets' rest' =>
      subst same
      subst same'
      obtain ⟨-, rfl⟩ := gets.unique gets'
      exact ih rest'

/-- Where one has gone on another one does not stop, when the others do nothing. -/
theorem goes_on (h : tree.Grows Eq t peer parts tree₁)
    (h' : tree.Grows Eq t peer (parts ++ i :: parts') tree₂) (free : tree₁.find? i = none) :
    tree₁.nodes.nextKey? ≠ none := by
  -- the other came through the same trees; in the last of them it had to make a node for `i`
  induction h with
  | still same =>
    cases h' with
    | next same' gets =>
      subst same
      subst same'
      cases gets with
      | found found =>
        rw [free] at found
        cases found
      | made _ next =>
        rw [next]
        nofun
  | next same gets _ ih =>
    cases h' with
    | next same' gets' rest' =>
      subst same
      subst same'
      obtain ⟨-, rfl⟩ := gets.unique gets'
      exact ih rest' free

/-- Of a tree that has all that is asked for only what the others do becomes something, if they leave
it there. -/
theorem others_of_has
    (trans : ∀ {tree₁ tree₂ tree₃ : Tree}, E tree₁ tree₂ → E tree₂ tree₃ → E tree₁ tree₃)
    (h : tree.Grows E t peer parts tree₁)
    (stays : ∀ {tree tree' : Tree}, ∀ i ∈ parts, E tree tree' → (tree.find? i).isSome →
      (tree'.find? i).isSome)
    (has : ∀ i ∈ parts, (tree.find? i).isSome) : E tree tree₁ := by
  induction h with
  | still others => exact others
  | next others gets _ ih =>
    have there := stays _ List.mem_cons_self others (has _ List.mem_cons_self)
    cases gets with
    | found =>
      refine trans others (ih (fun i mem => stays i (List.mem_cons_of_mem _ mem)) fun i mem => ?_)
      exact stays i (List.mem_cons_of_mem _ mem) others (has i (List.mem_cons_of_mem _ mem))
    | made free =>
      rw [free] at there
      cases there

end Grows

end TableAccess.Tree
