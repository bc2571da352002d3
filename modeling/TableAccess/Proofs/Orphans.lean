import TableAccess.Proofs.Requests

/-!
# Orphans

A row, column or cell whose table is not in the tree is an orphan: no table leads to it, and it is
not taken out with one. Taking a table out leaves none behind. But a node that is still held after
its table was taken out goes on making nodes for the table, and so does a call that was under way
meanwhile; there is no other way for an orphan to come about.

## The model

* `Tree.HasTable` — the node of a table is in a tree.
* `Moment.MadeLate` — a node was made when its table had left the tree.
* `orphans_were_made_late` — the main statement.
-/

namespace TableAccess

variable {μ : Type} {m m' : Moment μ} {t : TreeId} {tree : Tree} {a : Adapter} {k table : NodeKey}

namespace Tree

/-- The node of a table is in a tree. -/
def HasTable (tree : Tree) (table : NodeKey) : Prop := ∃ a, tree.find? (.table table) = some a

instance (tree : Tree) (table : NodeKey) : Decidable (tree.HasTable table) :=
  decidable_of_iff _ Option.isSome_iff_exists

theorem HasTable.add (h : tree.HasTable table) (indexed : tree.Indexed)
    (next : tree.nodes.nextKey? = some a.key) (free : tree.find? a.identity = none) :
    (tree.add a).HasTable table := by
  obtain ⟨b, hb⟩ := h
  refine ⟨b, ?_⟩
  rw [indexed.find?_add next free, if_neg, hb]
  rintro same
  rw [same, hb] at free
  cases free

theorem HasTable.removeTable {other : NodeKey} (h : tree.HasTable table) (indexed : tree.Indexed)
    (apart : table ≠ other) : (tree.removeTable other).HasTable table := by
  obtain ⟨b, hb⟩ := h
  obtain ⟨stored, identity⟩ := indexed.find?_eq_some_iff.1 hb
  refine ⟨b, (indexed.removeTable other).find?_eq_some_iff.2 ⟨?_, identity⟩⟩
  rw [indexed.get?_removeTable, stored, Option.filter_some, identity]
  exact if_pos (decide_eq_true apart)

end Tree

namespace Moment

/-- A node was made at a moment at which the node of its table, which had been made, was not in the
tree any more. -/
structure MadeLate (m : Moment μ) (t : TreeId) (a : Adapter) : Prop where
  /-- So it was when it was made. -/
  late : ∃ (before after : Moment μ) (tree : Tree), before.Lived ∧ before.Step after ∧
    after.Goes m ∧ after.past = before.past ++ [.made a] ∧ before.world.trees[t]? = some tree ∧
    ¬tree.HasTable a.tableKey ∧
    ∃ b, .made b ∈ before.past ∧ b.identity = .table a.tableKey ∧ b.tree = t

theorem MadeLate.goes (h : m.MadeLate t a) (later : m.Goes m') : m'.MadeLate t a := by
  obtain ⟨before, after, tree, lived, step, goes, rest⟩ := h.late
  exact ⟨before, after, tree, lived, step, goes.trans later, rest⟩

/-- The table of every node of a tree is in the tree, or the node was made late. -/
def Cared (m : Moment μ) (t : TreeId) : Prop :=
  ∀ {tree : Tree} {k : NodeKey} {a : Adapter}, m.world.trees[t]? = some tree →
    tree.get? k = some a → tree.HasTable a.tableKey ∨ m.MadeLate t a

theorem cared_first (memory : μ) (t : TreeId) : (first memory).Cared t := by
  intro tree k a ht
  simp [first, World.empty] at ht

/-- A node that is made through one of a table that is not in the tree is made late. -/
theorem Lived.madeLate {through : Adapter} (h : m.Lived) (step : m.Step m')
    (ht : m.world.trees[t]? = some tree) (past : m'.past = m.past ++ [.made a])
    (known : .made through ∈ m.past) (there : through.tree = t)
    (same : a.identity.tableKey = through.tableKey) (left : ¬tree.HasTable a.tableKey) :
    m'.MadeLate t a := by
  obtain ⟨b, made, isTable, key, here, -⟩ := h.keyed.family known
  refine ⟨m, m', tree, h, step, .refl m', past, ht, left, b, made, ?_, here.trans there⟩
  rw [isTable, key]
  exact congrArg Identity.table same.symm

theorem Cared.step (cared : m.Cared t) (h : m.Lived) (step : m.Step m') : m'.Cared t := by
  intro tree' k b ht' hb
  have old : ∀ {tree}, m.world.trees[t]? = some tree → tree.get? k = some b →
      (tree.HasTable b.tableKey → tree'.HasTable b.tableKey) →
      tree'.HasTable b.tableKey ∨ m'.MadeLate t b := fun ht hb stays =>
    (cared ht hb).imp stays fun late => late.goes step.goes
  cases step.change ht' with
  | planted c new e =>
    rw [e] at hb
    simp [Tree.get?, Tree.empty, Arena.get?, Arena.empty] at hb
  | @kept tree ht nodes index =>
    rw [Tree.get?, nodes] at hb
    refine old ht hb ?_
    unfold Tree.HasTable Tree.find? Tree.get?
    rw [nodes, index]
    exact id
  | @attached tree a ht next identity parent here e =>
    have coherent := h.coherent ht
    have free : tree.find? a.identity = none := by
      rw [identity]
      exact coherent.find?_table_nextKey next
    rw [e, coherent.indexed.get?_add next] at hb
    rw [e] at old ⊢
    split at hb
    · cases hb
      refine .inl ⟨b, ?_⟩
      rw [coherent.indexed.find?_add next free, if_pos]
      rw [identity, Adapter.tableKey, identity]
      rfl
    · exact old ht hb fun has => has.add coherent.indexed next free
  | @made tree a through parent ht next free known there same shared parent_eq isParent here e past =>
    have indexed := (h.coherent ht).indexed
    rw [e, indexed.get?_add next] at hb
    rw [e] at old ⊢
    split at hb
    · cases hb
      by_cases has : tree.HasTable b.tableKey
      · exact .inl (has.add indexed next free)
      · exact .inr (h.madeLate step ht past known there same has)
    · exact old ht hb fun has => has.add indexed next free
  | @detached tree ht other e =>
    have indexed := (h.coherent ht).indexed
    rw [e] at hb old ⊢
    obtain ⟨stored, apart⟩ := indexed.of_removeTable hb
    exact old ht stored fun has => has.removeTable indexed apart

/-- The table of every node of a tree is in the tree, or the node was made late, at every moment. -/
theorem Lived.cared (h : m.Lived) (t : TreeId) : m.Cared t := by
  refine (h.keeps (P := fun m => m.Lived ∧ m.Cared t) (fun memory => ?_) fun step ih => ?_).2
  · exact ⟨⟨memory, .refl _⟩, cared_first memory t⟩
  · exact ⟨ih.1.goes step.goes, Cared.step ih.2 ih.1 step⟩

end Moment

/-- Orphans come about in one way only. At every moment the table of every node in a tree is in the
tree, unless the node was made when its table, which had been attached, had left the tree already;
and when a table is taken out of the tree, no node that belongs to it stays, and no other node
loses its table. -/
theorem orphans_were_made_late (h : m.Lived) (ht : m.world.trees[t]? = some tree) :
    (∀ {k a}, tree.get? k = some a → tree.HasTable a.tableKey ∨ m.MadeLate t a) ∧
      ∀ table {k a}, (tree.removeTable table).get? k = some a →
        a.tableKey ≠ table ∧
          (tree.HasTable a.tableKey → (tree.removeTable table).HasTable a.tableKey) := by
  refine ⟨fun ha => h.cared t ht ha, fun table k a ha => ?_⟩
  have indexed := (h.coherent ht).indexed
  obtain ⟨-, apart⟩ := indexed.of_removeTable ha
  exact ⟨apart, fun has => has.removeTable indexed apart⟩

/-! ### A table that was taken out and is still held -/

/-- A table of one cell was attached and taken out again. -/
theorem Moment.lived_of_detached : ∃ m : Moment Unit, m.Lived ∧
    .made ⟨Arena.keyAt 0 1, .table (Arena.keyAt 0 1), none, 0, 0⟩ ∈ m.past ∧
    m.world = (World.attached () (.toolkit 0) (Context.start .default)
      (.grid (.ofGrid ⟨"", [""], [[""]]⟩))).modifyTree 0 (·.removeTable (Arena.keyAt 0 1)) := by
  obtain ⟨m, lived, e, -⟩ := Moment.lived_of_cell () (.toolkit 0)
  have known := lived.keyed.stored (t := 0) (k := Arena.keyAt 0 1) (by rw [e]; rfl) rfl
  have detached := (Step.trees (m := m) (.detach (t := 0) (by rw [e]; rfl) (Arena.keyAt 0 1))).goes
  exact ⟨_, lived.goes detached, detached.remembers known, by rw [e]; rfl⟩

/-- Its node makes a row for it once more. -/
theorem detached_table_gets_a_row : ∃ (m m' : Moment Unit) (a b : Adapter) (tree : Tree),
    m.Lived ∧ .made a ∈ m.past ∧ a.role = .table ∧ (m.world.trees[0]?).map Tree.size = some 0 ∧
      Adapter.Table.row a 0 m.world = .done (.ok (some b)) m'.world ∧ m.Goes m' ∧
      m'.world.trees[0]? = some tree ∧ tree.get? b.key = some b ∧ ¬tree.HasTable b.tableKey := by
  obtain ⟨m, lived, known, e⟩ := Moment.lived_of_detached
  obtain ⟨m', goes, e', made⟩ :=
    (Adapter.Table.row_meets lived known rfl 0).ends (a := some _) (by rw [e]; rfl)
  refine ⟨m, m', _, _, _, lived, known, rfl, by rw [e]; rfl, by rw [e, e']; rfl, goes,
    by rw [e']; rfl, rfl, by decide +kernel⟩

/-- That row was made late. -/
theorem orphans_were_made_late_row : ∃ (m : Moment Unit) (tree : Tree) (k : NodeKey) (a : Adapter),
    m.Lived ∧ m.world.trees[0]? = some tree ∧ tree.get? k = some a ∧
      a.identity = .row (Arena.keyAt 0 1) 0 ∧ m.MadeLate 0 a := by
  obtain ⟨m, lived, known, e⟩ := Moment.lived_of_detached
  obtain ⟨m', goes, e', -⟩ :=
    (Adapter.Table.row_meets lived known rfl 0).ends (a := some _) (by rw [e]; rfl)
  have lived' := lived.goes goes
  refine ⟨m', _, Arena.keyAt 0 3, _, lived', by rw [e']; rfl, rfl, rfl, ?_⟩
  exact ((orphans_were_made_late lived' (by rw [e']; rfl)).1 (k := Arena.keyAt 0 3) rfl).resolve_left
    (by decide +kernel)

end TableAccess
