import Mathlib.Data.List.Nodup
import TableAccess.Proofs.TreeIndex

/-!
# How many nodes there are

The size of a tree is the length of an enumeration of its nodes, in which no key comes up twice. So
it grows by one with every node that is added, and when a table is taken out it drops by the number
of the keys that belong to the table.

## The model

* `Arena.Sound.nodup_toList` — the enumeration of an arena lists no key twice.
* `Tree.Indexed.size_add`, `Tree.Indexed.size_removeTable` — how the size changes.
-/

namespace TableAccess

namespace Arena

variable {α : Type} {a b : Arena α} {k : NodeKey} {v : α}

/-- The enumeration lists no key twice: what comes later lies at a later position. -/
theorem Sound.nodup_keys (sound : a.Sound) : (a.toList.map Prod.fst).Nodup := by
  have positions : a.slots.toList.zipIdx.Pairwise fun x y => x.2 < y.2 := by
    rw [← List.pairwise_map, List.zipIdx_map_snd]
    exact List.pairwise_lt_range'
  have apart : a.toList.Pairwise fun x y => x.1 ≠ y.1 := by
    unfold toList
    rw [List.pairwise_filterMap]
    refine positions.imp_of_mem fun {x y} hx hy lt => ?_
    rintro ⟨k, v⟩ listed ⟨k', v'⟩ listed' same
    obtain ⟨w, -, e⟩ := Option.map_eq_some_iff.1 listed
    obtain ⟨w', -, e'⟩ := Option.map_eq_some_iff.1 listed'
    cases e
    cases e'
    rw [List.mem_zipIdx_iff_getElem?] at hx hy
    have px := position?_keyAt (sound.position_lt (s := x.1) (by simpa using hx)) x.1.version
    have py := position?_keyAt (sound.position_lt (s := y.1) (by simpa using hy)) y.1.version
    rw [show keyAt x.2 x.1.version = keyAt y.2 y.1.version from same, py] at px
    exact Nat.ne_of_gt lt (Option.some.inj px)
  exact List.pairwise_map.2 apart

theorem Sound.nodup_toList (sound : a.Sound) : a.toList.Nodup := sound.nodup_keys.of_map _

/-- Two arenas with the same values under the same keys have as many values. -/
theorem Sound.perm_toList (sound : a.Sound) {items : List (NodeKey × α)} (nodup : items.Nodup)
    (same : ∀ k v, a.get? k = some v ↔ (k, v) ∈ items) : a.toList.Perm items := by
  rw [List.perm_ext_iff_of_nodup sound.nodup_toList nodup]
  rintro ⟨k, v⟩
  rw [sound.mem_toList, same]

end Arena

namespace Tree

variable {t : Tree} {a : Adapter} {k table : NodeKey}

/-- A node that is added is one more. -/
theorem Indexed.size_add (h : t.Indexed) (next : t.nodes.nextKey? = some a.key) :
    (t.add a).size = t.size + 1 := by
  have fresh : (a.key, a) ∉ t.nodes.toList := by
    rw [h.arena.mem_toList, h.arena.get?_nextKey next]
    simp
  have perm : (t.add a).nodes.toList.Perm ((a.key, a) :: t.nodes.toList) := by
    refine (h.arena.insert a).perm_toList (h.arena.nodup_toList.cons fresh) fun k b => ?_
    rw [h.arena.get?_insert next, List.mem_cons, h.arena.mem_toList, Prod.mk.injEq]
    split
    · subst k
      simp [h.arena.get?_nextKey next, eq_comm]
    · simp [*]
  exact perm.length_eq

/-- When a table is taken out, the nodes that belong to it are missing. -/
theorem Indexed.size_removeTable (h : t.Indexed) (table : NodeKey) :
    (t.removeTable table).size + (t.keysOf table).length = t.size := by
  have perm : (t.removeTable table).nodes.toList.Perm
      (t.nodes.toList.filter fun x => !decide (x.2.identity.tableKey = table)) := by
    refine (h.removeTable table).arena.perm_toList (h.arena.nodup_toList.filter _) fun k a => ?_
    rw [List.mem_filter, h.arena.mem_toList]
    exact (h.get?_removeTable table k).congr_left.trans (by simp [Option.filter_eq_some_iff, get?])
  have both := List.length_eq_length_filter_add (l := t.nodes.toList)
    fun x => decide (x.2.identity.tableKey = table)
  rw [size, Arena.size, perm.length_eq, size, Arena.size, both, keysOf, List.length_map,
    Nat.add_comm]

end Tree

end TableAccess
