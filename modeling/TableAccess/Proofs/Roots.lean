import TableAccess.Proofs.Reattaching
import TableAccess.Proofs.Recycling

/-!
# Roots

A bridge keeps the key of its root and nobody takes the key back when the root leaves the tree. So
the key is looked up whenever the root is asked for. It is the key of a table that was attached; as
long as this table is in the tree no other one becomes the root; and since keys are not used again,
a root that has left the tree is not taken for another node.

## The model

* `World.HasRoot` — what a bridge answers when it is asked for its root.
* `Moment.BridgeChange` — all that a deed can make of a bridge.
* `Moment.Rooted` — every key that a bridge keeps was given to a table.
* `Moment.KeepsRoot` — what holds of the roots of a bridge from one moment to a later one.
* `roots_are_stable` — the main statement.
-/

namespace TableAccess

variable {μ : Type} {m m' : Moment μ} {w w' : World μ} {b : BridgeId} {bridge bridge' : Bridge}
  {t : TreeId} {tree tree' : Tree} {a : Adapter} {k : NodeKey}

/-- The root of a bridge has a key. -/
def World.HasRoot (w : World μ) (b : BridgeId) (k : NodeKey) : Prop :=
  Bridge.root? b w = .done (.ok (some k)) w

/-- A bridge has the root whose key it keeps, while there is a node under the key. -/
theorem World.hasRoot_iff (hb : w.bridges[b]? = some bridge)
    (ht : w.trees[bridge.tree]? = some tree) :
    w.HasRoot b k ↔ bridge.root = some k ∧ ∃ a, tree.get? k = some a := by
  unfold HasRoot
  rw [Bridge.root?_run hb ht]
  simp [Option.filter_eq_some_iff, Option.isSome_iff_exists]

/-- A node in the tree of a bridge is its root. -/
structure World.Root (w : World μ) (b : BridgeId) (t : TreeId) (a : Adapter) : Prop where
  /-- The bridge keeps its key. -/
  bridge : w.bridges[b]? = some ⟨t, some a.key⟩
  /-- It is in the tree. -/
  stored : ∃ tree, w.trees[t]? = some tree ∧ tree.get? a.key = some a

theorem World.Root.hasRoot (h : w.Root b t a) : w.HasRoot b a.key := by
  obtain ⟨hb, tree, ht, stored⟩ := h
  exact (World.hasRoot_iff hb ht).2 ⟨rfl, a, stored⟩

theorem Moment.Lived.hasRoot_iff (h : m.Lived) (hb : m.world.bridges[b]? = some bridge)
    (ht : m.world.trees[bridge.tree]? = some tree) :
    m.world.HasRoot b k ↔ ∃ a, m.world.Root b bridge.tree a ∧ a.key = k := by
  rw [World.hasRoot_iff hb ht]
  constructor
  · rintro ⟨hk, a, stored⟩
    obtain rfl := (h.coherent ht).indexed.key stored
    refine ⟨a, ⟨?_, tree, ht, stored⟩, rfl⟩
    rw [hb, ← hk]
  · rintro ⟨a, root, rfl⟩
    exact (World.hasRoot_iff hb ht).1 root.hasRoot

namespace Moment

/-! ### What a deed makes of a bridge -/

/-- What a deed that leaves a bridge behind made of it. -/
inductive BridgeChange (m : Moment μ) (b : BridgeId) (bridge' : Bridge) : Prop where
  /-- The bridge is new. -/
  | spanned (new : m.world.bridges[b]? = none) (root : bridge'.root = none)
  /-- It is what it was. -/
  | kept (hb : m.world.bridges[b]? = some bridge')
  /-- It had no root in the tree, and a table in the tree has become its root. -/
  | rooted {bridge : Bridge} {tree : Tree} {a : Adapter} (hb : m.world.bridges[b]? = some bridge)
      (ht : m.world.trees[bridge.tree]? = some tree)
      (none : (bridge.root.filter fun k => (tree.get? k).isSome) = none)
      (stored : tree.get? a.key = some a) (isTable : a.role = .table)
      (e : bridge' = { bridge with root := some a.key })

theorem Step.bridge_change (step : m.Step m') (hb' : m'.world.bridges[b]? = some bridge') :
    m.BridgeChange b bridge' := by
  cases step with
  | trees h =>
    cases h with
    | span t =>
      cases hb : m.world.bridges[b]? with
      | none =>
        have later := List.getElem?_eq_none_iff.1 hb
        rw [List.getElem?_append_right later] at hb'
        rw [List.mem_singleton.1 (List.mem_of_getElem? hb')]
        exact .spanned hb rfl
      | some bridge =>
        have lt := (List.getElem?_eq_some_iff.1 hb).1
        rw [List.getElem?_append_left lt] at hb'
        exact .kept hb'
    | @root b₀ bridge tree a hb ht none ha isTable =>
      rw [List.getElem?_modify] at hb'
      by_cases here : b₀ = b
      · subst here
        rw [hb] at hb'
        simp only [if_true] at hb'
        exact .rooted hb ht none ha isTable (Option.some.inj hb').symm
      · simp only [here, if_false] at hb'
        exact .kept (by simpa using hb')
    | _ => exact .kept hb'
  | _ => exact .kept hb'

/-! ### Roots are tables -/

/-- Every key that a bridge keeps as that of its root was given to a table of its tree. -/
def Rooted (m : Moment μ) : Prop :=
  ∀ (b : BridgeId) (bridge : Bridge) (k : NodeKey), m.world.bridges[b]? = some bridge →
    bridge.root = some k →
    ∃ a, .made a ∈ m.past ∧ a.tree = bridge.tree ∧ a.key = k ∧ a.role = .table

theorem Rooted.step (rooted : m.Rooted) (lived : m.Lived) (step : m.Step m') : m'.Rooted := by
  intro b bridge' k hb' hk
  cases step.bridge_change hb' with
  | spanned new root =>
    rw [root] at hk
    cases hk
  | kept hb =>
    obtain ⟨a, made, rest⟩ := rooted b bridge' k hb hk
    exact ⟨a, step.past.subset made, rest⟩
  | @rooted bridge tree a hb ht none stored isTable e =>
    subst e
    have made := step.past.subset (lived.keyed.stored ht stored)
    exact ⟨a, made, (lived.coherent ht).here stored, Option.some.inj hk, isTable⟩

theorem Lived.rooted (h : m.Lived) : m.Rooted := by
  refine (h.keeps (P := fun m => m.Lived ∧ m.Rooted) (fun memory => ⟨⟨memory, .refl _⟩, ?_⟩)
    fun step ih => ⟨ih.1.goes step.goes, Rooted.step ih.2 ih.1 step⟩).2
  intro b bridge k hb
  simp [first, World.empty] at hb

/-- What a bridge finds under the key of its root is the table that the key was given to. -/
theorem Lived.root_table (lived : m.Lived) (hb : m.world.bridges[b]? = some bridge)
    (ht : m.world.trees[bridge.tree]? = some tree) (few : m.removals bridge.tree < 2 ^ 31)
    (hk : bridge.root = some k) (stored : tree.get? k = some a) : a.role = .table := by
  obtain ⟨c, made, there, key, isTable⟩ := lived.rooted b bridge k hb hk
  have here := (lived.coherent ht).here stored
  have own := (lived.coherent ht).indexed.key stored
  have known := lived.keyed.stored ht stored
  rw [lived.keyed.once (here ▸ few) known made (here.trans there.symm) (own.trans key.symm)]
  exact isTable

/-! ### Roots stay -/

/-- A root stays the root unless it is taken out. -/
theorem Step.keeps_root (lived : m.Lived) (step : m.Step m')
    (few : m.removals t < 2 ^ 31) (root : m.world.Root b t a) (spared : ¬Detaches t a.key m m') :
    m'.world.Root b t a := by
  obtain ⟨hb, tree, ht, stored⟩ := root
  have isTable := lived.root_table hb ht few rfl stored
  obtain ⟨bridge', hb', sameTree⟩ := step.keeps_bridge hb
  have lt := Nat.lt_of_lt_of_le (List.getElem?_eq_some_iff.1 ht).1 step.trees_length
  have ht' := List.getElem?_eq_getElem lt
  refine ⟨?_, _, ht', step.keeps_table lived ht ht' spared stored isTable⟩
  cases step.bridge_change hb' with
  | spanned new => cases new.symm.trans hb
  | kept hb₁ => exact hb'.trans (hb₁.symm.trans hb)
  | @rooted bridge₁ tree₁ _ hb₁ ht₁ none =>
    cases hb₁.symm.trans hb
    cases ht₁.symm.trans ht
    simp [stored] at none

/-- A table that is taken out has left. -/
theorem Detaches.left (lived : m.Lived) (detaches : Detaches t a.key m m')
    (ht : m.world.trees[t]? = some tree) (stored : tree.get? a.key = some a)
    (isTable : a.role = .table) : m'.Left a := by
  obtain ⟨tree₀, ht₀, ht', past⟩ := detaches
  cases ht₀.symm.trans ht
  have made := lived.keyed.stored ht stored
  have here := (lived.coherent ht).here stored
  refine ⟨past ▸ List.mem_append_left _ made, fun {tree'} found => ?_⟩
  rw [here, ht'] at found
  cases found
  have own := lived.keyed.own made (Identity.eq_of_role_table isTable)
  rw [(lived.coherent ht).indexed.get?_removeTable, stored, Option.filter_some]
  exact if_neg (by simpa using own.symm)

/-- With a deed a root stays, or it leaves the tree. -/
theorem Step.root_or_left (lived : m.Lived) (step : m.Step m') (few : m.removals t < 2 ^ 31)
    (root : m.world.Root b t a) : m'.world.Root b t a ∨ m'.Left a := by
  by_cases detaches : Detaches t a.key m m'
  · obtain ⟨hb, tree, ht, stored⟩ := root
    exact .inr (detaches.left lived ht stored (lived.root_table hb ht few rfl stored))
  · exact .inl (step.keeps_root lived few root detaches)

/-- A root stays, or it leaves the tree and does not come back. -/
theorem Goes.root_or_left (later : m.Goes m') (lived : m.Lived) (few : m'.removals t < 2 ^ 31)
    (root : m.world.Root b t a) : m'.world.Root b t a ∨ m'.Left a := by
  obtain ⟨tree, ht, stored⟩ := root.stored
  have here := (lived.coherent ht).here stored
  revert few
  refine (later.keeps (P := fun m' => m'.Lived ∧
    (m'.removals t < 2 ^ 31 → m'.world.Root b t a ∨ m'.Left a)) ⟨lived, fun _ => .inl root⟩ ?_).2
  rintro m₁ m₂ step ⟨lived₁, ih⟩
  refine ⟨lived₁.goes step.goes, fun few => ?_⟩
  have few₁ := Nat.lt_of_le_of_lt (removals_le step t) few
  rcases ih few₁ with root₁ | left
  · exact step.root_or_left lived₁ few₁ root₁
  · exact .inr (left.step lived₁ step (here.symm ▸ few))

theorem Goes.trees_length (later : m.Goes m') : m.world.trees.length ≤ m'.world.trees.length :=
  later.keeps (P := fun m' => m.world.trees.length ≤ m'.world.trees.length) (Nat.le_refl _)
    fun step before => Nat.le_trans before step.trees_length

/-- A bridge keeps its tree, and the tree stays. -/
theorem Goes.keeps_home (later : m.Goes m') (hb : m.world.bridges[b]? = some bridge)
    (ht : m.world.trees[bridge.tree]? = some tree) : ∃ bridge' tree',
      m'.world.bridges[b]? = some bridge' ∧ bridge'.tree = bridge.tree ∧
        m'.world.trees[bridge'.tree]? = some tree' := by
  obtain ⟨bridge', hb', same⟩ := later.keeps_bridge hb
  have lt := Nat.lt_of_lt_of_le (List.getElem?_eq_some_iff.1 ht).1 later.trees_length
  exact ⟨bridge', _, hb', same, List.getElem?_eq_getElem (same ▸ lt)⟩

/-- At a later moment, too, the root of a bridge is a node in its tree. -/
theorem Goes.hasRoot_iff (later : m.Goes m') (h : m.Lived) (hb : m.world.bridges[b]? = some bridge)
    (ht : m.world.trees[bridge.tree]? = some tree) :
    m'.world.HasRoot b k ↔ ∃ a, m'.world.Root b bridge.tree a ∧ a.key = k := by
  obtain ⟨bridge', tree', hb', same, ht'⟩ := later.keeps_home hb ht
  rw [(h.goes later).hasRoot_iff hb' ht', same]

/-- Nothing under the key of a node that has left is a root. -/
theorem Left.not_root {c : Adapter} (left : m.Left a) (root : m.world.Root b a.tree c) :
    c.key ≠ a.key := by
  intro same
  obtain ⟨tree, ht, stored⟩ := root.stored
  rw [same, left.gone ht] at stored
  cases stored

end Moment

/-! ### Attaching gives a root -/

/-- Whoever was given a node for a table finds it in the tree, and all else as it was. -/
theorem Attached.get? {table : TableId} (h : Attached t table w (.ok a) w')
    (ht : w.trees[t]? = some tree) (indexed : tree.Indexed) :
    ∃ tree', w'.trees[t]? = some tree' ∧
      ∀ k, tree'.get? k = if k = a.key then some a else tree.get? k := by
  cases h with
  | found ht₁ found =>
    cases ht₁.symm.trans ht
    have stored := indexed.get?_of_mem_tables (List.mem_of_find?_eq_some found)
    refine ⟨tree, ht, fun k => ?_⟩
    split
    next same => rw [same, stored]
    next => rfl
  | @made tree₁ k ht₁ next =>
    cases ht₁.symm.trans ht
    refine ⟨tree.add ⟨k, .table k, none, w.peers.length, t⟩, ?_, indexed.get?_add next⟩
    show (w.trees.modify t _)[t]? = _
    simp only [List.getElem?_modify_eq, ht]
    rfl

/-- After a table was attached through a bridge the bridge has a root: the one it had, or else the
table that was attached. -/
theorem Bridge.attach_root {table : TableId} (hb : w.bridges[b]? = some bridge)
    (ht : w.trees[bridge.tree]? = some tree) (indexed : tree.Indexed)
    (run : Bridge.attach b table w = .done (.ok a) w') :
    ∃ k, w'.HasRoot b k ∧ (w.HasRoot b k ∨ k = a.key ∧ ∀ old, ¬w.HasRoot b old) := by
  obtain ⟨result, w₁, first, attached⟩ := attachTable_run bridge.tree table w
  unfold Bridge.attach at run
  rw [Act.bind_apply, getBridge_run hb] at run
  simp only [Act.bind_apply, Progress.bind, first] at run
  cases result with
  | error p => cases run
  | ok a' =>
    obtain ⟨tree₁, ht₁, get₁⟩ := attached.get? ht indexed
    have hb₁ : w₁.bridges[b]? = some bridge := attached.bridges ▸ hb
    simp only [Progress.bind, Act.bind_apply, root?_run hb₁ ht₁] at run
    cases root : bridge.root.filter fun k => (tree₁.get? k).isSome with
    | some k =>
      rw [root] at run
      cases run
      have stays : w'.HasRoot b k := (root?_run hb₁ ht₁).trans (by rw [root])
      obtain ⟨kept, x, stored⟩ := (World.hasRoot_iff hb₁ ht₁).1 stays
      refine ⟨k, stays, ?_⟩
      by_cases before : w.HasRoot b k
      · exact .inl before
      · refine .inr ⟨?_, fun old had => before ?_⟩
        · by_contra other
          rw [get₁, if_neg other] at stored
          exact before ((World.hasRoot_iff hb ht).2 ⟨kept, x, stored⟩)
        · obtain ⟨kept', -⟩ := (World.hasRoot_iff hb ht).1 had
          cases kept.symm.trans kept'
          exact had
    | none =>
      rw [root] at run
      cases run
      refine ⟨a.key, ?_, .inr ⟨rfl, fun old had => ?_⟩⟩
      · refine World.Root.hasRoot ⟨?_, tree₁, ht₁, by rw [get₁, if_pos rfl]⟩
        show (w₁.bridges.modify b _)[b]? = _
        simp only [List.getElem?_modify_eq, hb₁]
        rfl
      · obtain ⟨kept, x, stored⟩ := (World.hasRoot_iff hb ht).1 had
        have there : ∃ y, tree₁.get? old = some y := by
          rw [get₁]
          split
          next => exact ⟨_, rfl⟩
          next => exact ⟨x, stored⟩
        obtain ⟨y, there⟩ := there
        simp [kept, there] at root

/-! ### The main statement -/

/-- What holds of the roots of a bridge of a tree from one moment to a later one. -/
structure Moment.KeepsRoot (m m' : Moment μ) (b : BridgeId) (t : TreeId) : Prop where
  /-- The bridge says which its root is: none, or a table that is in the tree now. -/
  answers : ∃ root, Bridge.root? b m'.world = .done (.ok root) m'.world ∧ ∀ k, root = some k →
    ∃ a, m'.world.Root b t a ∧ a.key = k ∧ a.role = .table
  /-- Once a table was attached through it, it has one: the one it had, or else this table. -/
  attached : ∀ {table : TableId} {a : Adapter} {w : World μ},
    Bridge.attach b table m'.world = .done (.ok a) w →
    ∃ k, w.HasRoot b k ∧ (m'.world.HasRoot b k ∨ k = a.key ∧ ∀ old, ¬m'.world.HasRoot b old)
  /-- Only the deed that takes the root out makes it no root any more. -/
  stays : ∀ {k : NodeKey} {m'' : Moment μ}, m'.world.HasRoot b k → m'.Step m'' →
    ¬Moment.Detaches t k m' m'' → m''.world.HasRoot b k
  /-- What was the root is the root for as long as there is a node under its key. -/
  untilGone : ∀ {k : NodeKey} {tree : Tree}, m.world.HasRoot b k → m'.world.trees[t]? = some tree →
    (m'.world.HasRoot b k ↔ ∃ a, tree.get? k = some a)
  /-- Once it is the root no more it is not the root again, whatever is done then, and no other
  node gets its key. -/
  gone : ∀ {k : NodeKey} {m'' : Moment μ}, m.world.HasRoot b k → ¬m'.world.HasRoot b k →
    m'.Goes m'' → m''.removals t < 2 ^ 31 → ¬m''.world.HasRoot b k ∧
      ∀ {tree : Tree}, m''.world.trees[t]? = some tree → tree.get? k = none

/-- The root of a bridge is stable and always in the tree. Whatever is done, while fewer than
`2 ^ 31` nodes were taken out of the tree: the bridge has no root or one that is a table in the
tree; it has one after a table was attached through it; only taking out the root makes it no root
any more; and a root that has left does not come back under its key. -/
theorem roots_are_stable (h : m.Lived) (hb : m.world.bridges[b]? = some bridge)
    (ht : m.world.trees[bridge.tree]? = some tree) (later : m.Goes m')
    (few : m'.removals bridge.tree < 2 ^ 31) : m.KeepsRoot m' b bridge.tree := by
  have lived := h.goes later
  obtain ⟨bridge', tree', hb', sameTree, ht'⟩ := later.keeps_home hb ht
  have roots : ∀ {k}, m'.world.HasRoot b k ↔ ∃ a, m'.world.Root b bridge.tree a ∧ a.key = k :=
    later.hasRoot_iff h hb ht
  refine ⟨⟨_, Bridge.root?_run hb' ht', fun k root => ?_⟩, ?_, ?_, ?_, ?_⟩
  · have had : m'.world.HasRoot b k := (Bridge.root?_run hb' ht').trans (by rw [root])
    obtain ⟨a, isRoot, key⟩ := roots.1 had
    obtain ⟨tree₁, ht₁, stored⟩ := isRoot.stored
    exact ⟨a, isRoot, key, lived.root_table isRoot.bridge ht₁ few rfl stored⟩
  · intro table a w run
    exact Bridge.attach_root hb' ht' (lived.coherent ht').indexed run
  · intro k m'' had step spared
    obtain ⟨a, isRoot, rfl⟩ := roots.1 had
    exact (step.keeps_root lived few isRoot spared).hasRoot
  · intro k tree₁ had ht₁
    obtain ⟨a, isRoot, rfl⟩ := (h.hasRoot_iff hb ht).1 had
    constructor
    · intro had'
      obtain ⟨c, isRoot', key⟩ := roots.1 had'
      obtain ⟨tree₂, ht₂, stored⟩ := isRoot'.stored
      cases ht₁.symm.trans ht₂
      exact ⟨c, key ▸ stored⟩
    · rintro ⟨c, stored⟩
      rcases later.root_or_left h few isRoot with isRoot' | left
      · exact isRoot'.hasRoot
      · obtain ⟨tree₀, ht₀, stored₀⟩ := isRoot.stored
        obtain here := (h.coherent ht₀).here stored₀
        rw [left.gone (here.symm ▸ ht₁)] at stored
        cases stored
  · intro k m'' had lost last few''
    obtain ⟨a, isRoot, rfl⟩ := (h.hasRoot_iff hb ht).1 had
    obtain ⟨tree₀, ht₀, stored₀⟩ := isRoot.stored
    have here := (h.coherent ht₀).here stored₀
    have left := (later.root_or_left h few isRoot).resolve_left fun isRoot' => lost isRoot'.hasRoot
    have left'' := left.goes lived last (here.symm ▸ few'')
    refine ⟨fun had'' => ?_, fun found => left''.gone (here.symm ▸ found)⟩
    obtain ⟨c, isRoot'', key⟩ := ((later.trans last).hasRoot_iff h hb ht).1 had''
    exact left''.not_root (here.symm ▸ isRoot'') key

/-- The root is taken out, and a table is attached that gets its slot: the old key is not that of
the root again. -/
theorem roots_are_stable_slot : ∃ (m m' m'' : Moment Unit) (a b : Adapter) (tree : Tree),
    m.Lived ∧ m.world.HasRoot 0 a.key ∧ m.Goes m' ∧ m'.Goes m'' ∧
      m''.world.trees[0]? = some tree ∧ tree.get? b.key = some b ∧ b.key.index = a.key.index ∧
      ¬m''.world.HasRoot 0 a.key := by
  obtain ⟨m₀, lived₀, e, untouched⟩ := Moment.lived_of_cell () (.client 0)
  have ht₀ : m₀.world.trees[0]? = some ((Tree.empty 0).add .firstTable) := by rw [e]; rfl
  have hb₀ : m₀.world.bridges[0]? = some ⟨0, none⟩ := by rw [e]; rfl
  have stored₀ : ((Tree.empty 0).add .firstTable).get? Adapter.firstTable.key = some .firstTable := rfl
  obtain ⟨m, becomes, hb, ht, held, past⟩ : ∃ m, m₀.Step m ∧
      m.world.bridges[0]? = some ⟨0, some Adapter.firstTable.key⟩ ∧
      m.world.trees[0]? = some ((Tree.empty 0).add .firstTable) ∧ 0 < m.world.tables.length ∧
      m.past = m₀.past ++ [] :=
    ⟨_, .trees (.root hb₀ ht₀ rfl stored₀ rfl), by simp [hb₀], ht₀, by rw [e]; exact Nat.one_pos, rfl⟩
  have lived := lived₀.goes becomes.goes
  have untouched' : m.removals 0 = 0 := by
    rw [Moment.removals_of_past past, (untouched 0).2]
    rfl
  obtain ⟨m', m'', b, tree', tree'', detaches, attaches, bridges, ht', gone, ht'', stored, slot, removals',
    removals''⟩ := lived.first_slot_again ht held
  have few' : m'.removals 0 < 2 ^ 31 := by
    rw [removals', untouched']
    decide
  have few'' : m''.removals 0 < 2 ^ 31 := by
    rw [removals'', untouched']
    decide
  have had : m.world.HasRoot 0 Adapter.firstTable.key := World.Root.hasRoot ⟨hb, _, ht, stored₀⟩
  have lost : ¬m'.world.HasRoot 0 Adapter.firstTable.key := by
    rw [World.hasRoot_iff (bridges ▸ hb) ht', gone]
    simp
  exact ⟨m, m', m'', .firstTable, b, tree'', lived, had, detaches.goes, attaches.goes, ht'', stored, slot,
    ((roots_are_stable lived hb ht detaches.goes few').gone had lost attaches.goes few'').1⟩

end TableAccess
