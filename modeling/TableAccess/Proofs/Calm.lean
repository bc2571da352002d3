import TableAccess.Proofs.Answering
import TableAccess.Proofs.Peers
import TableAccess.Proofs.Requests

/-!
# A table that stays as it is

A table is attached to a tree that a bridge holds, it is an editable table, and its context responds.
Meanwhile the others may do what they like, but for the contents of the table and the nodes of the
table: those stay. Then the table stays in its place, whoever reads it.

## The model

* `Stage.Set` — a table is attached at a moment, with some contents.
* `Stage.Calm` — what the others may do to the world, `E` being what they may do to the tree.
* `Stage.Keeps` — they may do anything to a tree that leaves the nodes of the table where they are.
* `Set.ready`, `Calm.bears` — so the table is in its place, and stays there.
-/

namespace TableAccess.Stage

variable {μ : Type} {m : Moment μ} {s : Stage} {E : Tree → Tree → Prop}

/-- The stage is set: the node of a table is in a tree that a bridge holds, the table has some contents
and is bound to nothing but the tree's context, and the context responds. -/
structure Set (s : Stage) (m : Moment μ) : Prop where
  /-- The table's node is in the tree. -/
  node : ∃ tree a, m.world.trees[s.tree]? = some tree ∧ tree.alive = true ∧ tree.context = s.context ∧
    tree.get? s.key = some a ∧ a.role = .table ∧ a.peer = s.peer
  /-- Its peer refers to the table. -/
  peer : ∃ peer, m.world.peers[s.peer]? = some peer ∧ peer.table = s.table
  /-- The table has its contents. -/
  contents : m.world.Presents s.context s.table s.grid
  /-- The context responds. -/
  responds : m.world.Responds s.context
  /-- The tree has given no key twice. -/
  once : m.GivenOnce s.tree

/-- From one world to a later one the others did what they liked, but left the contents of the table as
they are, did to the tree what `E` says, and the context responds. -/
structure Calm (s : Stage) (E : Tree → Tree → Prop) (w w' : World μ) : Prop where
  /-- What they did they could do, and no key was given twice. -/
  goes : ∃ m m' : Moment μ, m.Lived ∧ m.Goes m' ∧ m'.GivenOnce s.tree ∧ m.world = w ∧ m'.world = w'
  /-- The table has its contents. -/
  contents : w'.Presents s.context s.table s.grid
  /-- The context responds. -/
  responds : w'.Responds s.context
  /-- So the tree was left, and some bridge holds it. -/
  tree : ∃ tree tree', w.trees[s.tree]? = some tree ∧ w'.trees[s.tree]? = some tree' ∧
    tree'.alive = true ∧ E tree tree'

/-- The nodes of the table stay where they are. -/
def Keeps (s : Stage) (tree tree' : Tree) : Prop :=
  ∀ {i : Identity} {a : Adapter}, i.tableKey = s.key → tree.find? i = some a → tree'.find? i = some a

/-- A table whose node is in a tree is in its place, if its peer refers to it and it has contents. -/
theorem Stands.of_lived {tree : Tree} {a : Adapter} {invalidated : Bool} (h : m.Lived)
    (once : m.GivenOnce s.tree) (ht : m.world.trees[s.tree]? = some tree) (alive : tree.alive = true)
    (root : tree.find? (.table s.key) = some a) (own : a.peer = s.peer)
    (hp : m.world.peers[s.peer]? = some ⟨s.table, s.context, invalidated⟩)
    (contents : m.world.Presents s.context s.table s.grid) : s.Stands m.world := by
  have coherent := h.coherent ht
  have ⟨owner, table, _⟩ := contents
  have valid : invalidated = false := h.valid_of_live hp table rfl
  refine ⟨valid ▸ hp, contents, h.filed.rectangular table, tree, ht, alive, coherent, by rw [root]; rfl,
    fun {k b} stored family => ?_⟩
  obtain ⟨rootStored, identity⟩ := coherent.indexed.find?_eq_some_iff.1 root
  rw [← own]
  refine h.keyed.same_peer once (h.keyed.stored ht stored) (h.keyed.stored ht rootStored)
    (coherent.here stored) (coherent.here rootStored) ?_
  rw [family, Adapter.tableKey, identity]
  rfl

/-- When the stage is set the table is in its place. -/
theorem Set.ready (h : m.Lived) (set : s.Set m) : s.Ready m.world := by
  obtain ⟨tree, a, ht, alive, context, stored, isTable, own⟩ := set.node
  obtain ⟨⟨table, c, invalidated⟩, hp, rfl⟩ := set.peer
  have coherent := h.coherent ht
  have key := coherent.indexed.key stored
  have identity : a.identity = .table s.key := by
    rcases coherent.parent stored with ⟨-, identity⟩ | ⟨p, -, isParent⟩
    · exact key ▸ identity
    · exact absurd (Identity.eq_of_role_table isTable) isParent.ne_table
  have same : c = s.context := by
    obtain ⟨peer, hp', context'⟩ := h.referred.context (h.keyed.stored ht stored)
      ((coherent.here stored).symm ▸ ht)
    rw [own, hp] at hp'
    cases hp'
    exact context'.trans context
  subst same
  refine ⟨.of_lived h set.once ht alive ?_ own hp set.contents, set.responds⟩
  exact coherent.indexed.find?_eq_some_iff.2 ⟨key.symm ▸ stored, identity⟩

/-- As long as it is calm the table stays in its place. -/
theorem Calm.bears (refl : ∀ tree, E tree tree)
    (trans : ∀ {tree₁ tree₂ tree₃ : Tree}, E tree₁ tree₂ → E tree₂ tree₃ → E tree₁ tree₃)
    (stays : ∀ {tree tree' : Tree}, E tree tree' → s.Keeps tree tree') :
    s.Bears E (s.Calm (μ := μ) E) where
  refl := refl
  trans := trans
  stays others := stays others
  ready {w w'} stands calm := by
    obtain ⟨m, m', lived, goes, once, rfl, rfl⟩ := calm.goes
    obtain ⟨tree, tree', ht, ht', alive, others⟩ := calm.tree
    obtain ⟨tree₁, ht₁, plants⟩ := stands.planted
    rw [ht] at ht₁
    cases ht₁
    obtain ⟨a, root⟩ := Option.isSome_iff_exists.1 plants.root
    obtain ⟨stored, identity⟩ := plants.coherent.indexed.find?_eq_some_iff.1 root
    have own : a.peer = s.peer := plants.peers stored (by rw [Adapter.tableKey, identity]; rfl)
    obtain ⟨invalidated, hp, -⟩ := goes.keeps_peer stands.peer
    have stands' : s.Stands m'.world := .of_lived (lived.goes goes) once ht' alive
      (stays others rfl root) own hp calm.contents
    exact ⟨⟨stands', calm.responds⟩, tree, tree', ht, ht', others⟩

/-- The others may do anything that leaves the nodes of the table where they are. -/
theorem Keeps.bears (s : Stage) : s.Bears s.Keeps (s.Calm (μ := μ) s.Keeps) :=
  Calm.bears (fun _ _ _ _ found => found) (fun h h' _ _ own found => h' own (h own found)) id

/-- The others may do nothing to the tree. -/
theorem Calm.bears_eq (s : Stage) : s.Bears Eq (s.Calm (μ := μ) Eq) :=
  Calm.bears (fun _ => rfl) Eq.trans fun same _ _ _ found => same ▸ found

/-- The stage is set once an editable table was made and attached, whichever thread goes on. -/
theorem set_attached {g : Grid} (rectangular : g.Rectangular) (memory : μ) (thread : Thread) :
    ∃ m : Moment μ, m.Lived ∧
      m.world = World.attached memory thread (.start .default) (.grid (.ofGrid g)) ∧
      (⟨0, Arena.keyAt 0 1, 0, 0, 0, g⟩ : Stage).Set m := by
  obtain ⟨m, lived, e, untouched⟩ := Moment.lived_of_grid rectangular memory thread
  have planted : m.world.trees[0]? =
      some ((Tree.empty 0).add ⟨Arena.keyAt 0 1, .table (Arena.keyAt 0 1), none, 0, 0⟩) := by
    rw [e]
    rfl
  have clock : m.world.clock = 0 := by
    rw [e]
    rfl
  refine ⟨m, lived, e, ⟨_, _, planted, rfl, rfl, rfl, rfl, rfl⟩, ⟨_, by rw [e]; rfl, rfl⟩,
    ⟨none, by rw [e]; rfl, nofun⟩, ⟨.start .default, by rw [e]; rfl, fun _ => ?_⟩, ?_⟩
  · exact ⟨⟨_, by rw [e]; rfl⟩, by rw [clock]; decide⟩
  · refine (lived.corresponds planted).once ?_
    rw [(untouched 0).2]
    decide

end TableAccess.Stage
