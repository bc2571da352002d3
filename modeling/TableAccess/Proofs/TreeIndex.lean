import TableAccess.Proofs.Arena
import TableAccess.Tree

/-!
# Nodes and their identities

A tree keeps its nodes twice: by key in an arena, and by identity in an index that leads to the key.
In an indexed tree the two agree, so that a key and an identity each tell one node. Adding a node
whose identity is new and taking out the nodes of a table both keep them in agreement.

## The model

* `Tree.Indexed` — the arena and the index agree.
* `get?_add`, `find?_add`, `get?_removeTable` — what is there after a node was added, and after a
  table was taken out.
-/

namespace TableAccess.Tree

variable {t : Tree} {a b : Adapter} {i : Identity} {k k' table : NodeKey}

/-- The nodes by key and the keys by identity agree. -/
structure Indexed (t : Tree) : Prop where
  /-- The arena is sound. -/
  arena : t.nodes.Sound
  /-- A node lies under its own key. -/
  key : ∀ {k : NodeKey} {a : Adapter}, t.get? k = some a → a.key = k
  /-- An identity leads to the key of the node that stands for it, and to nothing else. -/
  index : ∀ {i : Identity} {k : NodeKey},
    t.index[i]? = some k ↔ ∃ a, t.get? k = some a ∧ a.identity = i

theorem indexed_empty (context : ContextId) : (empty context).Indexed where
  arena := Arena.sound_empty
  key h := by simp [get?, empty, Arena.get?, Arena.empty] at h
  index := by simp [get?, empty, Arena.get?, Arena.empty]

/-- The node of an identity is the one that stands for it. -/
theorem Indexed.find?_eq_some_iff (h : t.Indexed) :
    t.find? i = some a ↔ t.get? a.key = some a ∧ a.identity = i := by
  unfold find?
  rw [Option.bind_eq_some_iff]
  constructor
  · rintro ⟨k, hk, ha⟩
    obtain ⟨b, hb, hi⟩ := h.index.1 hk
    rw [ha] at hb
    cases hb
    rw [h.key ha]
    exact ⟨ha, hi⟩
  · rintro ⟨ha, hi⟩
    exact ⟨a.key, h.index.2 ⟨a, ha, hi⟩, ha⟩

theorem Indexed.find?_identity (h : t.Indexed) (ha : t.get? k = some a) :
    t.find? a.identity = some a := by
  rw [h.find?_eq_some_iff, h.key ha]
  exact ⟨ha, rfl⟩

theorem Indexed.find?_eq_none_iff (h : t.Indexed) :
    t.find? i = none ↔ ∀ k a, t.get? k = some a → a.identity ≠ i := by
  constructor
  · rintro none k a ha rfl
    rw [h.find?_identity ha] at none
    cases none
  · intro free
    rw [Option.eq_none_iff_forall_ne_some]
    intro a ha
    obtain ⟨stored, hi⟩ := h.find?_eq_some_iff.1 ha
    exact free _ _ stored hi

/-- No two nodes stand for the same. -/
theorem Indexed.eq_of_identity (h : t.Indexed) (ha : t.get? k = some a) (hb : t.get? k' = some b)
    (same : a.identity = b.identity) : k = k' := by
  have ea := h.find?_identity ha
  rw [same, h.find?_identity hb] at ea
  cases ea
  rw [← h.key ha, h.key hb]

/-! ### Adding a node -/

theorem Indexed.get?_add (h : t.Indexed) (next : t.nodes.nextKey? = some a.key) (k : NodeKey) :
    (t.add a).get? k = if k = a.key then some a else t.get? k :=
  h.arena.get?_insert next a k

/-- Adding a node leaves those that are there. -/
theorem Indexed.get?_add_of_some (h : t.Indexed) (next : t.nodes.nextKey? = some a.key)
    (hb : t.get? k = some b) : (t.add a).get? k = some b := by
  rw [h.get?_add next, if_neg, hb]
  rintro rfl
  rw [get?, h.arena.get?_nextKey next] at hb
  cases hb

theorem index_add (i : Identity) :
    (t.add a).index[i]? = if a.identity = i then some a.key else t.index[i]? := by
  simp only [add, Std.TreeMap.getElem?_insert, Std.LawfulEqCmp.compare_eq_iff_eq]

/-- A node whose identity is new can be added under the next key. -/
theorem Indexed.add (h : t.Indexed) (next : t.nodes.nextKey? = some a.key)
    (new : t.find? a.identity = none) : (t.add a).Indexed where
  arena := h.arena.insert a
  key {k b} hb := by
    rw [h.get?_add next] at hb
    split at hb
    · cases hb
      exact Eq.symm ‹_›
    · exact h.key hb
  index {i k} := by
    rw [index_add]
    simp only [h.get?_add next]
    have none_under : t.get? a.key = none := h.arena.get?_nextKey next
    split
    · subst i
      constructor
      · rintro ⟨⟩
        exact ⟨a, by simp, rfl⟩
      · rintro ⟨b, hb, same⟩
        split at hb
        · subst k
          rfl
        · exact absurd same (h.find?_eq_none_iff.1 new _ _ hb)
    · rename_i other
      rw [h.index]
      constructor
      · rintro ⟨b, hb, hi⟩
        refine ⟨b, ?_, hi⟩
        rw [if_neg, hb]
        rintro rfl
        rw [none_under] at hb
        cases hb
      · rintro ⟨b, hb, hi⟩
        split at hb
        · cases hb
          exact absurd hi other
        · exact ⟨b, hb, hi⟩

theorem Indexed.find?_add (h : t.Indexed) (next : t.nodes.nextKey? = some a.key)
    (new : t.find? a.identity = none) (i : Identity) :
    (t.add a).find? i = if a.identity = i then some a else t.find? i := by
  apply Option.ext
  intro b
  rw [(h.add next new).find?_eq_some_iff, h.get?_add next]
  by_cases same : a.identity = i
  · subst i
    rw [if_pos rfl]
    constructor
    · rintro ⟨hb, hi⟩
      split at hb
      · exact hb
      · exact absurd hi (h.find?_eq_none_iff.1 new _ _ hb)
    · rintro ⟨⟩
      simp
  · rw [if_neg same, h.find?_eq_some_iff]
    constructor
    · rintro ⟨hb, hi⟩
      split at hb
      · cases hb
        exact absurd hi same
      · exact ⟨hb, hi⟩
    · rintro ⟨hb, hi⟩
      refine ⟨?_, hi⟩
      rw [if_neg, hb]
      intro e
      rw [e, get?, h.arena.get?_nextKey next] at hb
      cases hb

/-! ### Taking nodes out -/

theorem get?_remove (k k' : NodeKey) :
    (t.remove k).get? k' = if k' = k then none else t.get? k' := by
  unfold remove
  split
  · split
    · subst k'
      assumption
    · rfl
  · exact Arena.get?_erase k k'

theorem Indexed.remove (h : t.Indexed) (k : NodeKey) : (t.remove k).Indexed := by
  cases ha : t.get? k with
  | none =>
    have e : t.remove k = t := by simp [Tree.remove, ha]
    rw [e]
    exact h
  | some a =>
    have e : t.remove k = { t with
        nodes := t.nodes.erase k, index := t.index.erase a.identity } := by
      simp [Tree.remove, ha]
    have there : ∀ k', (t.remove k).get? k' = if k' = k then none else t.get? k' :=
      fun k' => get?_remove k k'
    refine ⟨?_, fun {k' b} hb => ?_, fun {i k'} => ?_⟩
    · rw [e]
      exact h.arena.erase k
    · rw [there] at hb
      split at hb
      · cases hb
      · exact h.key hb
    · simp only [there]
      rw [e]
      simp only [Std.TreeMap.getElem?_erase, Std.LawfulEqCmp.compare_eq_iff_eq]
      split
      · subst i
        constructor
        · intro none
          cases none
        rintro ⟨b, hb, same⟩
        split at hb
        · cases hb
        · rename_i other
          exact absurd (h.eq_of_identity hb ha same) other
      · rename_i other
        rw [h.index]
        constructor
        · rintro ⟨b, hb, hi⟩
          refine ⟨b, ?_, hi⟩
          rw [if_neg, hb]
          rintro rfl
          rw [ha] at hb
          cases hb
          exact other hi
        · rintro ⟨b, hb, hi⟩
          split at hb
          · cases hb
          · exact ⟨b, hb, hi⟩

theorem get?_foldl_remove (keys : List NodeKey) (k : NodeKey) :
    (keys.foldl remove t).get? k = if k ∈ keys then none else t.get? k := by
  induction keys generalizing t with
  | nil => simp
  | cons k' rest ih =>
    rw [List.foldl_cons, ih, get?_remove]
    by_cases first : k = k' <;> by_cases later : k ∈ rest <;> simp [first, later]

theorem Indexed.foldl_remove (h : t.Indexed) (keys : List NodeKey) :
    (keys.foldl Tree.remove t).Indexed := by
  induction keys generalizing t with
  | nil => exact h
  | cons k rest ih => exact ih (h.remove k)

theorem Indexed.mem_keysOf (h : t.Indexed) :
    k ∈ t.keysOf table ↔ ∃ a, t.get? k = some a ∧ a.identity.tableKey = table := by
  unfold keysOf
  simp only [List.mem_map, List.mem_filter, Prod.exists, h.arena.mem_toList, decide_eq_true_eq]
  exact ⟨fun ⟨_, a, ⟨ha, belongs⟩, e⟩ => ⟨a, e ▸ ha, belongs⟩,
    fun ⟨a, ha, belongs⟩ => ⟨k, a, ⟨ha, belongs⟩, rfl⟩⟩

theorem Indexed.removeTable (h : t.Indexed) (table : NodeKey) : (t.removeTable table).Indexed :=
  h.foldl_remove _

/-- Of the nodes those stay that belong to other tables. -/
theorem Indexed.get?_removeTable (h : t.Indexed) (table k : NodeKey) :
    (t.removeTable table).get? k = (t.get? k).filter (·.identity.tableKey ≠ table) := by
  rw [Tree.removeTable, get?_foldl_remove]
  cases ha : t.get? k with
  | none => simp
  | some a =>
    by_cases belongs : a.identity.tableKey = table
    · rw [if_pos (h.mem_keysOf.2 ⟨a, ha, belongs⟩)]
      simp [Option.filter, belongs]
    · rw [if_neg]
      · simp [Option.filter, belongs]
      · intro mem
        obtain ⟨b, hb, of_table⟩ := h.mem_keysOf.1 mem
        rw [ha] at hb
        cases hb
        exact belongs of_table

theorem Indexed.of_removeTable (h : t.Indexed) (ha : (t.removeTable table).get? k = some a) :
    t.get? k = some a ∧ a.identity.tableKey ≠ table := by
  rw [h.get?_removeTable, Option.filter_eq_some_iff] at ha
  simpa using ha

/-- The table nodes lie under their keys. -/
theorem Indexed.get?_of_mem_tables (h : t.Indexed) (mem : a ∈ t.tables) : t.get? a.key = some a := by
  obtain ⟨⟨k, b⟩, listed, rfl⟩ := List.mem_map.1 (List.mem_filter.1 mem).1
  have stored := h.arena.mem_toList.1 listed
  rw [h.key stored]
  exact stored

/-- What is not changed by taking out a node is not changed by taking out a table. -/
theorem removeTable_same {β : Type} {f : Tree → β} (same : ∀ t k, f (t.remove k) = f t) (t : Tree)
    (table : NodeKey) : f (t.removeTable table) = f t := by
  unfold removeTable
  generalize t.keysOf table = keys
  induction keys generalizing t with
  | nil => rfl
  | cons k rest ih => rw [List.foldl_cons, ih, same]

@[simp] theorem removeTable_context (t : Tree) (table : NodeKey) :
    (t.removeTable table).context = t.context := by
  refine removeTable_same (f := Tree.context) (fun t k => ?_) t table
  unfold remove
  split <;> rfl

@[simp] theorem removeTable_alive (t : Tree) (table : NodeKey) :
    (t.removeTable table).alive = t.alive := by
  refine removeTable_same (f := Tree.alive) (fun t k => ?_) t table
  unfold remove
  split <;> rfl

end TableAccess.Tree
