import TableAccess.Proofs.Increments
import TableAccess.Proofs.Roots

/-!
# Bridges without a root

A bridge gets its root when a table is attached through it, and loses it when this table is taken out.
Nobody looks for another one then: whoever takes a table out knows of no bridge. So a bridge is without
a root from the moment its root is taken out until the next table is attached through it, and it shows
nothing meanwhile, whichever of its tables are still in the tree.

## The model

* `World.Rootless` — a bridge has no root.
* `Moment.StaysRootless` — it has had none for some time.
* `Moment.Uprooted` — its root was taken out, and it has had none since.
* `Moment.Exposes` — what a bridge shows, once a table was attached through it.
* `roots_last_until_taken_out` — the main statement.
-/

namespace TableAccess

variable {μ : Type} {m m' m'' : Moment μ} {w w' : World μ} {b : BridgeId} {bridge : Bridge}
  {t : TreeId} {tree tree' : Tree} {a c : Adapter} {k : NodeKey} {table : TableId}

/-- A bridge has no root. -/
def World.Rootless (w : World μ) (b : BridgeId) : Prop := Bridge.root? b w = .done (.ok none) w

theorem World.Rootless.not_hasRoot (h : w.Rootless b) : ¬w.HasRoot b k := by
  intro had
  rw [HasRoot, h] at had
  cases had

/-- A bridge has a root, or it has none. -/
theorem World.hasRoot_or_rootless (hb : w.bridges[b]? = some bridge)
    (ht : w.trees[bridge.tree]? = some tree) : (∃ k, w.HasRoot b k) ∨ w.Rootless b := by
  have answers := Bridge.root?_run hb ht
  cases root : bridge.root.filter fun k => (tree.get? k).isSome with
  | some k => exact .inl ⟨k, answers.trans (by rw [root])⟩
  | none => exact .inr (answers.trans (by rw [root]))

/-! ### What a bridge shows -/

/-- Without a root it shows nothing. -/
theorem World.Rootless.initialTree (h : w.Rootless b) :
    Bridge.initialTree b w = .done (.ok none) w := by
  unfold Bridge.initialTree
  rw [Act.bind_apply, h]
  rfl

/-- With a root it shows what is below the root. -/
theorem World.HasRoot.initialTree (h : w.HasRoot b k) (hb : w.bridges[b]? = some bridge) :
    Bridge.initialTree b w = buildTreeUpdate bridge.tree k w := by
  have shown : Bridge.initialTree b w = Bridge.treeUpdate b k w := by
    unfold Bridge.initialTree
    rw [Act.bind_apply, h]
    rfl
  rw [shown, Bridge.treeUpdate_run hb]

namespace Moment

/-! ### Losing the root -/

/-- When the table of its root is taken out a bridge is left without one. -/
theorem Detaches.rootless (lived : m.Lived) (step : m.Step m') (few : m.removals t < 2 ^ 31)
    (detaches : Detaches t a.key m m') (root : m.world.Root b t a) : m'.world.Rootless b := by
  obtain ⟨hb, tree, ht, stored⟩ := root
  have left := detaches.left lived ht stored (lived.root_table hb ht few rfl stored)
  have here := (lived.coherent ht).here stored
  obtain ⟨_, _, ht', _⟩ := detaches
  obtain ⟨bridge', hb', sameTree⟩ := step.keeps_bridge hb
  have gone := left.gone (here.symm ▸ ht')
  have kept : bridge'.root = some a.key := by
    cases step.bridge_change hb' with
    | spanned new => cases new.symm.trans hb
    | kept hb₁ => exact congrArg Bridge.root (Option.some.inj (hb₁.symm.trans hb))
    | @rooted bridge₁ tree₁ _ hb₁ ht₁ none =>
      cases hb₁.symm.trans hb
      cases ht₁.symm.trans ht
      simp [stored] at none
  refine (Bridge.root?_run hb' ((congrArg (m'.world.trees[·]?) sameTree).trans ht')).trans ?_
  rw [kept, Option.filter_some, gone]
  rfl

/-- The other tables of the tree are still there then, with all their nodes. -/
theorem Detaches.keeps_others (lived : m.Lived) (detaches : Detaches t k m m')
    (ht : m.world.trees[t]? = some tree) (stored : tree.get? c.key = some c) (other : c.tableKey ≠ k) :
    ∃ tree', m'.world.trees[t]? = some tree' ∧ tree'.get? c.key = some c := by
  obtain ⟨tree₀, ht₀, ht', -⟩ := detaches
  cases ht₀.symm.trans ht
  refine ⟨_, ht', ?_⟩
  rw [(lived.coherent ht).indexed.get?_removeTable, stored, Option.filter_some]
  exact if_pos (decide_eq_true other)

/-- From one moment to a later one a bridge has no root. -/
structure StaysRootless (m : Moment μ) (b : BridgeId) (m' : Moment μ) : Prop where
  /-- It has none at first, -/
  first : m.world.Rootless b
  /-- and no deed gives it one. -/
  since : Relation.ReflTransGen (fun m m' => m.Step m' ∧ m'.world.Rootless b) m m'

/-- After some moment the root of a bridge was taken out, and the bridge has had none since. -/
structure Uprooted (m : Moment μ) (b : BridgeId) (t : TreeId) (m' : Moment μ) : Prop where
  /-- It had a root, a deed took it out, and no deed has given it one. -/
  since : ∃ before after k, m.Goes before ∧ before.world.HasRoot b k ∧ before.Step after ∧
    Detaches t k before after ∧ after.StaysRootless b m'

/-- A bridge that has a root has one later, or else its root was taken out and it has had none since. -/
theorem Goes.hasRoot_or_uprooted (later : m.Goes m') (h : m.Lived)
    (hb : m.world.bridges[b]? = some bridge) (ht : m.world.trees[bridge.tree]? = some tree)
    (few : m'.removals bridge.tree < 2 ^ 31) (had : m.world.HasRoot b k) :
    (∃ k, m'.world.HasRoot b k) ∨ m.Uprooted b bridge.tree m' := by
  revert few
  induction later with
  | refl => exact fun _ => .inl ⟨k, had⟩
  | @tail m₁ m₂ before step ih =>
    intro few
    have before : m.Goes m₁ := before
    have lived₁ := h.goes before
    have few₁ := Nat.lt_of_le_of_lt (removals_le step bridge.tree) few
    rcases ih few₁ with ⟨k₁, had₁⟩ | ⟨n, n', k', goes, had', step', detaches, stays⟩
    · obtain ⟨a, root, rfl⟩ := (before.hasRoot_iff h hb ht).1 had₁
      by_cases detaches : Detaches bridge.tree a.key m₁ m₂
      · have rootless := detaches.rootless lived₁ step few₁ root
        exact .inr ⟨m₁, m₂, a.key, before, had₁, step, detaches, rootless, .refl⟩
      · exact .inl ⟨_, (step.keeps_root lived₁ few₁ root detaches).hasRoot⟩
    · obtain ⟨bridge₂, tree₂, hb₂, -, ht₂⟩ := (before.trans step.goes).keeps_home hb ht
      rcases World.hasRoot_or_rootless hb₂ ht₂ with has | rootless
      · exact .inl has
      · exact .inr ⟨n, n', k', goes, had', step', detaches, stays.first,
          stays.since.tail ⟨step, rootless⟩⟩

/-! ### The main statement -/

/-- What a bridge shows of its tree at a moment, if it had a root at an earlier one. -/
structure Exposes (m m' : Moment μ) (b : BridgeId) (t : TreeId) : Prop where
  /-- It has a root, or else its root was taken out in between and it has had none since. -/
  root : (∃ k, m'.world.HasRoot b k) ∨ m.Uprooted b t m'
  /-- When its root is taken out it is left without one, whatever other nodes are in the tree; and
  these stay there. -/
  uproots : ∀ {k : NodeKey} {m'' : Moment μ}, m'.world.HasRoot b k → m'.Step m'' →
    Detaches t k m' m'' → m''.world.Rootless b ∧
      ∀ {tree : Tree} {c : Adapter}, m'.world.trees[t]? = some tree → tree.get? c.key = some c →
        c.tableKey ≠ k → ∃ tree', m''.world.trees[t]? = some tree' ∧ tree'.get? c.key = some c
  /-- Without a root it shows nothing. -/
  hides : m'.world.Rootless b → Bridge.initialTree b m'.world = .done (.ok none) m'.world
  /-- The table that is attached through it next is its root, also if it was attached before. -/
  restores : ∀ {table : TableId} {a : Adapter} {w : World μ}, m'.world.Rootless b →
    Bridge.attach b table m'.world = .done (.ok a) w → w.HasRoot b a.key
  /-- With a root it shows what there is below it: -/
  shows : ∀ {k : NodeKey}, m'.world.HasRoot b k →
    Bridge.initialTree b m'.world = buildTreeUpdate t k m'.world
  /-- the whole table, if that is there with contents that stay and its context responds. -/
  exposes : ∀ {s : Stage}, m'.world.HasRoot b s.key → s.tree = t → s.Set m' →
    (Bridge.initialTree b).Brings s s.Keeps (s.Calm s.Keeps)
      (s.grid.sown Adapter.levels (.table s.key))
      (fun shown w' => ∃ u, shown = some u ∧ s.Serializes w' u) m'.world

theorem Lived.exposes (h : m.Lived) (hb : m.world.bridges[b]? = some bridge)
    (ht : m.world.trees[bridge.tree]? = some tree) (had : m.world.HasRoot b k) (later : m.Goes m')
    (few : m'.removals bridge.tree < 2 ^ 31) : m.Exposes m' b bridge.tree := by
  have lived := h.goes later
  obtain ⟨bridge', tree', hb', sameTree, ht'⟩ := later.keeps_home hb ht
  have shows : ∀ {k}, m'.world.HasRoot b k →
      Bridge.initialTree b m'.world = buildTreeUpdate bridge.tree k m'.world := fun had' => by
    rw [had'.initialTree hb', sameTree]
  refine ⟨later.hasRoot_or_uprooted h hb ht few had, ?_, World.Rootless.initialTree, ?_, shows, ?_⟩
  · intro k m'' had' step detaches
    obtain ⟨a, root, rfl⟩ := (later.hasRoot_iff h hb ht).1 had'
    exact ⟨detaches.rootless lived step few root, detaches.keeps_others lived⟩
  · intro table a w rootless run
    obtain ⟨k, has, old | ⟨rfl, -⟩⟩ := Bridge.attach_root hb' ht' (lived.coherent ht').indexed run
    · exact absurd old rootless.not_hasRoot
    · exact has
  · intro s had' here set
    obtain ⟨a, root⟩ := (set.ready lived).root
    have whole := Act.Brings.buildTreeUpdate (Stage.Keeps.bears s) (set.ready lived) root
    refine ⟨?_⟩
    rw [shows had', ← here]
    exact whole.comes

end Moment

/-- **A bridge has a root until it is taken out.** Once a table was attached through a bridge, then at
every later moment, while fewer than `2 ^ 31` nodes were taken out of the tree, the bridge has a root, or
its root was taken out and it has had none since. When the root is taken out the bridge is left without
one, whichever tables are still in the tree, and shows nothing until a table is attached through it. With
a root it shows what there is below it, which is the whole table if this stays as it is and its context
responds. -/
theorem roots_last_until_taken_out {m₁ : Moment μ} (h : m.Lived)
    (hb : m.world.bridges[b]? = some bridge) (ht : m.world.trees[bridge.tree]? = some tree)
    (run : Bridge.attach b table m.world = .done (.ok a) m₁.world) (first : m.Goes m₁)
    (later : m₁.Goes m') (few : m'.removals bridge.tree < 2 ^ 31) :
    m₁.Exposes m' b bridge.tree := by
  obtain ⟨k, has, -⟩ := Bridge.attach_root hb ht (h.coherent ht).indexed run
  obtain ⟨bridge₁, tree₁, hb₁, sameTree, ht₁⟩ := first.keeps_home hb ht
  rw [← sameTree] at few ⊢
  exact (h.goes first).exposes hb₁ ht₁ has later few

/-! ### Two tables -/

/-- A table with one cell. -/
def Table.oneCell : Table := .grid (.ofGrid ⟨"", ["h"], [["x"]]⟩)

/-- The world with a context, a bridge over an empty tree and two tables that are attached nowhere. -/
def World.unattached : World Unit :=
  { World.empty () with
    thread := .toolkit 0
    contexts := [.start .default]
    tables := [some .oneCell, some .oneCell]
    trees := [.empty 0]
    bridges := [⟨0, none⟩] }

/-- It can come to be, before any node is taken out. -/
theorem Moment.lived_unattached : ∃ m : Moment Unit, m.Lived ∧ m.world = World.unattached ∧
    m.past.filterMap (Deed.removed? 0) = [] := by
  have rectangular : (⟨"", ["h"], [["x"]]⟩ : Grid).Rectangular := by simp [Grid.Rectangular]
  have spawned := (Step.contexts (m := .first ()) (.spawn Context.spawn_default)).goes
  have planted := spawned.trans (Step.trees (.plant 0)).goes
  have spanned := planted.trans (Step.trees (.span 0)).goes
  have one := spanned.trans (Step.tables (.create rectangular)).goes
  have two := one.trans (Step.tables (.create rectangular)).goes
  exact ⟨_, ⟨(), two.trans (Step.aside _ (.toolkit 0) true [] 1 0 ()).goes⟩, rfl, rfl⟩

/-- A table is attached through a bridge and taken out: the root was taken out, and the bridge has had
none since. -/
theorem roots_last_until_taken_out_alone : ∃ (m m₁ m' : Moment Unit) (a : Adapter),
    m.Lived ∧ Bridge.attach 0 0 m.world = .done (.ok a) m₁.world ∧ m₁.world.HasRoot 0 a.key ∧
      m₁.Goes m' ∧ m₁.Uprooted 0 0 m' := by
  obtain ⟨⟨past, world⟩, lived, e, untouched⟩ := Moment.lived_unattached
  cases e
  obtain ⟨a, table⟩ : ∃ a : Adapter,
      a = ⟨Arena.keyAt 0 1, .table (Arena.keyAt 0 1), none, 0, 0⟩ := ⟨_, rfl⟩
  obtain ⟨stored, one, gone⟩ : ((Tree.empty 0).add a).get? a.key = some a ∧
      ((Tree.empty 0).add a).keysOf a.key = [a.key] ∧
      (((Tree.empty 0).add a).removeTable a.key).get? a.key = none := by
    subst table
    decide +kernel
  obtain ⟨m₁, e₁⟩ : ∃ m₁ : Moment Unit, m₁ = ⟨past ++ [.made a] ++ [], { World.unattached with
      peers := [⟨0, 0, false⟩]
      trees := [(Tree.empty 0).add a]
      bridges := [⟨0, some a.key⟩]
      log := [(.toolkit 0, .becameRoot a.key.toRaw), (.toolkit 0, .tableAttached a.key.toRaw)] }⟩ :=
    ⟨_, rfl⟩
  have run : Bridge.attach 0 0 World.unattached = .done (.ok a) m₁.world := by
    rw [e₁, table]
    rfl
  have first : (⟨past, World.unattached⟩ : Moment Unit).Goes m₁ := by
    have attached : Moment.Step ⟨past, World.unattached⟩ ⟨past ++ [.made a], { World.unattached with
        peers := [⟨0, 0, false⟩], trees := [(Tree.empty 0).add a] }⟩ := by
      rw [table]
      exact .trees (@TreeStep.attach Unit ⟨past, World.unattached⟩ 0 (.empty 0) 0 (Arena.keyAt 0 1) rfl
        Nat.two_pos rfl rfl)
    have told := attached.goes.trans (Moment.Step.aside _ (.toolkit 0) true
      [(.toolkit 0, .becameRoot a.key.toRaw), (.toolkit 0, .tableAttached a.key.toRaw)] 1 0 ()).goes
    rw [e₁]
    exact told.trans (Moment.Step.trees (.root (b := 0) rfl rfl rfl stored (by rw [table]; rfl))).goes
  have hb₁ : m₁.world.bridges[0]? = some ⟨0, some a.key⟩ := by rw [e₁]; rfl
  have ht₁ : m₁.world.trees[0]? = some ((Tree.empty 0).add a) := by rw [e₁]; rfl
  have root : m₁.world.Root 0 0 a := ⟨hb₁, _, ht₁, stored⟩
  obtain ⟨m', detaches, hb', ht', past'⟩ : ∃ m', m₁.Step m' ∧
      m'.world.bridges[0]? = some ⟨0, some a.key⟩ ∧
      m'.world.trees[0]? = some (((Tree.empty 0).add a).removeTable a.key) ∧
      m'.past = m₁.past ++ [.detached 0 1] :=
    ⟨_, .trees (.detach ht₁ a.key), hb₁, by simp [ht₁], by rw [one]; rfl⟩
  have few : m'.removals 0 < 2 ^ 31 := by
    rw [Moment.removals, past', e₁]
    simp [Deed.removed?, List.filterMap_cons, show past.filterMap (Deed.removed? 0) = [] from untouched]
  have exposes := roots_last_until_taken_out lived rfl rfl run first detaches.goes few
  refine ⟨_, m₁, m', a, lived, run, root.hasRoot, detaches.goes, exposes.root.resolve_left ?_⟩
  rintro ⟨k, had⟩
  obtain ⟨kept, x, found⟩ := (World.hasRoot_iff hb' ht').1 had
  cases kept
  rw [gone] at found
  cases found

/-- Of two tables that were attached through a bridge the first is taken out. The bridge has no root then
and shows nothing, though the second is in the tree and could be shown whole. -/
theorem remaining_table_is_not_shown : ∃ (m : Moment Unit) (a c : Adapter) (w₁ w₂ w₃ : World Unit),
    m.Lived ∧ Bridge.attach 0 0 m.world = .done (.ok a) w₁ ∧
      Bridge.attach 0 1 w₁ = .done (.ok c) w₂ ∧ detachTable 0 a.key w₂ = .done (.ok 1) w₃ ∧
      (∃ tree, w₃.trees[0]? = some tree ∧ tree.get? c.key = some c) ∧
      (buildTreeUpdate 0 c.key w₃).value?.map (·.map (·.nodes.length)) = some (some 4) ∧
      w₃.Rootless 0 ∧ Bridge.initialTree 0 w₃ = .done (.ok none) w₃ := by
  obtain ⟨m, lived, e, -⟩ := Moment.lived_unattached
  refine ⟨m, ⟨Arena.keyAt 0 1, .table (Arena.keyAt 0 1), none, 0, 0⟩,
    ⟨Arena.keyAt 1 1, .table (Arena.keyAt 1 1), none, 1, 0⟩, _, _, _, lived, by rw [e]; rfl, rfl, rfl,
    ⟨_, rfl, by decide +kernel⟩, by decide +kernel, ?_, rfl⟩
  unfold World.Rootless
  rfl

end TableAccess
