import Mathlib.Data.List.Basic
import TableAccess.Arena

/-!
# What arenas keep

An arena is told by what lies under its keys. In a sound arena a slot is filled exactly while its
version is odd, and the free slots are those that are listed. Then putting a value in and taking one
out change what lies under one key, and under no other.

## The model

* `Arena.Sound` — the invariant of the slots and the list of the free ones.
* `get?_insert`, `get?_erase`, `mem_toList` — insertion, removal and enumeration, told by `get?`.
-/

namespace TableAccess

/-! ### Odd versions -/

theorem odd_iff (v : UInt32) : v &&& 1 = 1 ↔ v.toNat % 2 = 1 := by
  rw [← UInt32.toNat_inj, UInt32.toNat_and]
  simp

theorem toNat_or_one (v : UInt32) : (v ||| 1).toNat = 2 * (v.toNat / 2) + 1 := by
  have half : (v.toNat ||| 1) / 2 = v.toNat / 2 := by simp [Nat.or_div_two]
  have odd : (v.toNat ||| 1) % 2 = 1 := by simp
  rw [UInt32.toNat_or]
  show (v.toNat ||| 1) = _
  omega

theorem or_one_of_odd {v : UInt32} (h : v &&& 1 = 1) : v ||| 1 = v := by
  rw [odd_iff] at h
  rw [← UInt32.toNat_inj, toNat_or_one]
  omega

theorem succ_of_odd {v : UInt32} (h : v &&& 1 = 1) : (v + 1) &&& 1 ≠ 1 := by
  rw [odd_iff] at h
  rw [Ne, odd_iff, UInt32.toNat_add]
  have : (1 : UInt32).toNat = 1 := rfl
  omega

namespace Arena

variable {α : Type} {a : Arena α}

/-! ### Keys and positions -/

theorem position?_keyAt {p : Nat} (h : p < maxSlots) (version : UInt32) :
    position? (keyAt p version) = some p := by
  have small : p + 1 < 2 ^ 32 := by unfold maxSlots at h; omega
  have index : (keyAt p version).index.toNat = p + 1 := by
    show (UInt32.ofNat (p + 1)).toNat = p + 1
    rw [UInt32.toNat_ofNat']
    exact Nat.mod_eq_of_lt small
  unfold position?
  rw [index]

theorem index_of_position? {k : NodeKey} {p : Nat} (h : position? k = some p) :
    k.index = UInt32.ofNat (p + 1) := by
  unfold position? at h
  rw [← UInt32.toNat_inj, UInt32.toNat_ofNat']
  split at h
  · cases h
  · cases h
    have := k.index.toNat_lt
    omega

/-- A key is told by its position and its version. -/
theorem keyAt_of_position? {k : NodeKey} {p : Nat} (h : position? k = some p) :
    keyAt p k.version = k := by
  ext1
  · exact (index_of_position? h).symm
  · exact or_one_of_odd k.odd

theorem version_keyAt {version : UInt32} (h : version &&& 1 = 1) (p : Nat) :
    (keyAt p version).version = version := or_one_of_odd h

theorem position?_injective {k k' : NodeKey} {p : Nat} (h : position? k = some p)
    (h' : position? k' = some p) (same : k.version = k'.version) : k = k' := by
  rw [← keyAt_of_position? h, ← keyAt_of_position? h', same]

/-- What lies under a key lies in the slot at its position. -/
theorem get?_eq_some_iff {k : NodeKey} {v : α} :
    a.get? k = some v ↔
      ∃ p, position? k = some p ∧ a.slots[p]? = some ⟨k.version, some v⟩ := by
  unfold get?
  constructor
  · intro h
    obtain ⟨p, hp, h⟩ := Option.bind_eq_some_iff.1 h
    obtain ⟨s, hs, h⟩ := Option.bind_eq_some_iff.1 h
    split at h
    · rename_i version
      exact ⟨p, hp, by rw [hs, ← version, ← h]⟩
    · cases h
  · rintro ⟨p, hp, hs⟩
    rw [hp]
    simp [hs]

/-! ### Soundness -/

/-- The slots of an arena and its list of free slots agree. -/
structure Sound (a : Arena α) : Prop where
  /-- There are no more slots than indices. -/
  size : a.slots.size ≤ maxSlots
  /-- A slot is filled while its version is odd. -/
  filled : ∀ {p : Nat} {s : Slot α}, a.slots[p]? = some s →
    (s.content.isSome = true ↔ s.version &&& 1 = 1)
  /-- The free slots are those that are not filled. -/
  free : ∀ {p : Nat}, p ∈ a.free ↔ ∃ version, a.slots[p]? = some ⟨version, none⟩
  /-- No slot is listed twice. -/
  nodup : a.free.Nodup

theorem sound_empty : (empty : Arena α).Sound where
  size := Nat.zero_le _
  filled h := by simp [empty] at h
  free := by simp [empty]
  nodup := List.nodup_nil

/-- The slot a value goes to: one that was free, or a new one. -/
theorem nextKey?_eq_some {k : NodeKey} (h : a.nextKey? = some k) :
    (∃ p rest, a.free = p :: rest ∧ k = keyAt p (a.versionAt p)) ∨
    (a.free = [] ∧ a.slots.size < maxSlots ∧ k = keyAt a.slots.size 1) := by
  unfold nextKey? at h
  split at h
  · exact .inl ⟨_, _, ‹_›, by simpa using h.symm⟩
  · split at h
    · exact .inr ⟨‹_›, ‹_›, by simpa using h.symm⟩
    · cases h

theorem Sound.position_lt (sound : a.Sound) {p : Nat} {s : Slot α} (h : a.slots[p]? = some s) :
    p < maxSlots := by
  obtain ⟨lt, -⟩ := Array.getElem?_eq_some_iff.1 h
  exact Nat.lt_of_lt_of_le lt sound.size

/-- The version a value gets in a slot that was free. -/
theorem Sound.versionAt_free (sound : a.Sound) {p : Nat} {rest : List Nat}
    (h : a.free = p :: rest) :
    ∃ version, a.slots[p]? = some ⟨version, none⟩ ∧ a.versionAt p = version ∧
      ¬version &&& 1 = 1 := by
  obtain ⟨version, hs⟩ := sound.free.1 (h ▸ List.mem_cons_self)
  refine ⟨version, hs, by simp [versionAt, hs], ?_⟩
  intro odd
  simpa using (sound.filled hs).2 odd

/-- The next key is at a position that is empty, and the value goes there. -/
theorem Sound.next (sound : a.Sound) {k : NodeKey} (h : a.nextKey? = some k) (v : α) :
    ∃ p, position? k = some p ∧ (∀ version w, a.slots[p]? ≠ some ⟨version, some w⟩) ∧
      ∀ q, (a.insert v).slots[q]? = if q = p then some ⟨k.version, some v⟩ else a.slots[q]? := by
  rcases nextKey?_eq_some h with ⟨p, rest, free, rfl⟩ | ⟨free, room, rfl⟩
  · obtain ⟨version, hs, -, -⟩ := sound.versionAt_free free
    refine ⟨p, position?_keyAt (sound.position_lt hs) _, fun _ _ e => ?_, fun q => ?_⟩
    · rw [hs] at e
      simp at e
    · simp only [insert, free]
      rw [Array.getElem?_setIfInBounds]
      obtain ⟨lt, -⟩ := Array.getElem?_eq_some_iff.1 hs
      by_cases hq : q = p
      · subst hq
        simp [lt, keyAt, NodeKey.ofParts]
      · simp [hq, Ne.symm hq]
  · refine ⟨a.slots.size, position?_keyAt room _, fun _ _ e => ?_, fun q => ?_⟩
    · simp at e
    · simp only [insert, free, room, if_true]
      rw [Array.getElem?_push]
      rfl

/-- Nothing lies under the next key. -/
theorem Sound.get?_nextKey (sound : a.Sound) {k : NodeKey} (h : a.nextKey? = some k) :
    a.get? k = none := by
  rw [Option.eq_none_iff_forall_ne_some]
  intro v hv
  obtain ⟨p, hp, empty, -⟩ := sound.next h v
  obtain ⟨q, hq, hs⟩ := get?_eq_some_iff.1 hv
  rw [hp] at hq
  cases hq
  exact empty _ _ hs

/-- A value put in lies under the next key; all others stay where they are. -/
theorem Sound.get?_insert (sound : a.Sound) {k : NodeKey} (h : a.nextKey? = some k) (v : α)
    (k' : NodeKey) : (a.insert v).get? k' = if k' = k then some v else a.get? k' := by
  obtain ⟨p, hp, empty, slots⟩ := sound.next h v
  apply Option.ext
  intro w
  rw [get?_eq_some_iff]
  split
  · subst k'
    constructor
    · rintro ⟨q, hq, hs⟩
      rw [hp] at hq
      cases hq
      simpa [slots] using hs
    · rintro ⟨⟩
      exact ⟨p, hp, by simp [slots]⟩
  · rename_i other
    rw [get?_eq_some_iff]
    refine exists_congr fun q => and_congr_right fun hq => ?_
    rw [slots]
    split
    · subst q
      refine ⟨?_, fun e => absurd e (empty _ _)⟩
      intro e
      obtain ⟨version, -⟩ := Slot.mk.inj (Option.some.inj e)
      exact absurd (position?_injective hq hp version.symm) other
    · exact .rfl

theorem Sound.insert (sound : a.Sound) (v : α) : (a.insert v).Sound := by
  cases free : a.free with
  | nil =>
    by_cases room : a.slots.size < maxSlots
    · have e : a.insert v = ⟨a.slots.push ⟨1, some v⟩, []⟩ := by simp [Arena.insert, free, room]
      rw [e]
      refine ⟨?_, fun {p s} hs => ?_, fun {p} => ?_, List.nodup_nil⟩
      · rw [Array.size_push]
        exact room
      · rw [Array.getElem?_push] at hs
        split at hs
        · cases hs
          simp
        · exact sound.filled hs
      · constructor
        · intro h
          cases h
        · rintro ⟨version, hs⟩
          rw [Array.getElem?_push] at hs
          split at hs
          · cases hs
          · exact free ▸ sound.free.2 ⟨version, hs⟩
    · have e : a.insert v = a := by simp [Arena.insert, free, room]
      rw [e]
      exact sound
  | cons p rest =>
    obtain ⟨version, hp, hv, even⟩ := sound.versionAt_free free
    have e : a.insert v = ⟨a.slots.setIfInBounds p ⟨version ||| 1, some v⟩, rest⟩ := by
      simp [Arena.insert, free, hv]
    have nodup := free ▸ sound.nodup
    rw [e]
    refine ⟨by simpa using sound.size, fun {q s} hs => ?_, fun {q} => ?_, nodup.of_cons⟩
    · rw [Array.getElem?_setIfInBounds] at hs
      split at hs
      · split at hs
        · cases hs
          simp [NodeKey.or_one_and_one]
        · cases hs
      · exact sound.filled hs
    · rw [Array.getElem?_setIfInBounds]
      have listed : q ∈ p :: rest ↔ ∃ version, a.slots[q]? = some ⟨version, none⟩ :=
        free ▸ sound.free
      by_cases hq : p = q
      · subst hq
        have : p ∉ rest := (List.nodup_cons.1 nodup).1
        simp [this]
      · simpa [hq, Ne.symm hq] using listed

/-- Taking out what lies under a key frees the slot and changes no other. -/
theorem erase_eq {k : NodeKey} {v : α} (h : a.get? k = some v) :
    ∃ p, position? k = some p ∧ a.slots[p]? = some ⟨k.version, some v⟩ ∧
      a.erase k = ⟨a.slots.setIfInBounds p ⟨k.version + 1, none⟩, p :: a.free⟩ := by
  obtain ⟨p, hp, hs⟩ := get?_eq_some_iff.1 h
  exact ⟨p, hp, hs, by simp [erase, h, hp]⟩

theorem erase_of_get?_eq_none {k : NodeKey} (h : a.get? k = none) : a.erase k = a := by
  simp [erase, h]

/-- What was taken out is not there any more; all else stays where it is. -/
theorem get?_erase (k k' : NodeKey) :
    (a.erase k).get? k' = if k' = k then none else a.get? k' := by
  cases h : a.get? k with
  | none =>
    rw [erase_of_get?_eq_none h]
    split
    · subst k'
      exact h
    · rfl
  | some v =>
    obtain ⟨p, hp, hs, e⟩ := erase_eq h
    obtain ⟨lt, -⟩ := Array.getElem?_eq_some_iff.1 hs
    apply Option.ext
    intro w
    rw [get?_eq_some_iff, e]
    split
    · subst k'
      refine ⟨?_, fun h => by cases h⟩
      rintro ⟨q, hq, hs'⟩
      rw [hp] at hq
      cases hq
      simp [lt] at hs'
    · rename_i other
      rw [get?_eq_some_iff]
      refine exists_congr fun q => and_congr_right fun hq => ?_
      rw [Array.getElem?_setIfInBounds]
      by_cases hpq : p = q
      · subst hpq
        rw [if_pos rfl, if_pos lt, hs]
        constructor
        · intro e
          simp at e
        · intro e
          obtain ⟨version, -⟩ := Slot.mk.inj (Option.some.inj e)
          exact absurd (position?_injective hq hp version.symm) other
      · rw [if_neg hpq]

theorem Sound.erase (sound : a.Sound) (k : NodeKey) : (a.erase k).Sound := by
  cases h : a.get? k with
  | none =>
    rw [erase_of_get?_eq_none h]
    exact sound
  | some v =>
    obtain ⟨p, hp, hs, e⟩ := erase_eq h
    obtain ⟨lt, -⟩ := Array.getElem?_eq_some_iff.1 hs
    rw [e]
    refine ⟨by simpa using sound.size, fun {q s} hq => ?_, fun {q} => ?_, ?_⟩
    · rw [Array.getElem?_setIfInBounds] at hq
      split at hq
      · cases hq
        simpa using succ_of_odd k.odd
      · exact sound.filled hq
    · rw [Array.getElem?_setIfInBounds, List.mem_cons]
      by_cases hpq : p = q
      · subst hpq
        simp [lt]
      · simpa [hpq, Ne.symm hpq] using sound.free
    · refine List.nodup_cons.2 ⟨?_, sound.nodup⟩
      intro listed
      obtain ⟨version, free⟩ := sound.free.1 listed
      rw [hs] at free
      simp at free

/-- The enumeration lists what lies under the keys. -/
theorem Sound.mem_toList (sound : a.Sound) {k : NodeKey} {v : α} :
    (k, v) ∈ a.toList ↔ a.get? k = some v := by
  unfold toList
  rw [get?_eq_some_iff, List.mem_filterMap]
  constructor
  · rintro ⟨⟨s, p⟩, mem, h⟩
    rw [List.mem_zipIdx_iff_getElem?] at mem
    obtain ⟨w, content, e⟩ := Option.map_eq_some_iff.1 h
    obtain ⟨rfl, rfl⟩ := Prod.mk.inj e
    have hs : a.slots[p]? = some s := by simpa using mem
    have odd := (sound.filled hs).1 (by rw [content]; rfl)
    refine ⟨p, position?_keyAt (sound.position_lt hs) _, ?_⟩
    rw [hs, version_keyAt odd, ← content]
  · rintro ⟨p, hp, hs⟩
    refine ⟨(⟨k.version, some v⟩, p), ?_, ?_⟩
    · rw [List.mem_zipIdx_iff_getElem?]
      simpa using hs
    · simp [keyAt_of_position? hp]

end Arena

end TableAccess
