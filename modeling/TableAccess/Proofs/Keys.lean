import Mathlib.Algebra.GroupWithZero.Nat
import TableAccess.Proofs.TreeIndex

/-!
# Keys are not given twice

The version of a slot grows with every change until its 32 bits are used up, which takes `2 ^ 31`
removals. An arena knows the keys it has given: the slot that a key points at has come at least as
far as the key. Until then no key it knows is given again.

## The model

* `Arena.Spent` — no slot has come further than so many removals can bring it.
* `Arena.Knows` — a key was given before.
* `Sound.not_knows_nextKey` — the next key is none of those that were given.

Outside a key is a number, and reads back as the key it came from (`ofRaw_toRaw`). Which other number
reads as the key is said in `ofRaw_eq_iff`.
-/

namespace TableAccess

/-! ### Keys as numbers -/

namespace NodeKey

theorem toNat_toRaw (k : NodeKey) : k.toRaw.toNat = k.version.toNat * 2 ^ 32 + k.index.toNat := by
  have version := k.version.toNat_lt
  have index := k.index.toNat_lt
  have by32 : (32 : UInt64).toNat % 64 = 32 := rfl
  rw [toRaw, UInt64.toNat_or, UInt64.toNat_shiftLeft, by32]
  simp only [UInt32.toNat_toUInt64]
  rw [Nat.shiftLeft_eq, Nat.mod_eq_of_lt (by omega), ← Nat.shiftLeft_eq,
    Nat.shiftLeft_add_eq_or_of_lt index]

theorem version_odd (k : NodeKey) : k.version.toNat % 2 = 1 := (odd_iff _).1 k.odd

/-- The number of a key with its version made even. -/
def toEven (k : NodeKey) : NodeId := k.toRaw - 0x100000000

theorem toNat_toEven (k : NodeKey) :
    k.toEven.toNat = (k.version.toNat - 1) * 2 ^ 32 + k.index.toNat := by
  have raw := toNat_toRaw k
  have odd := version_odd k
  have le : (0x100000000 : UInt64) ≤ k.toRaw := by
    rw [UInt64.le_iff_toNat_le, raw]
    show 0x100000000 ≤ _
    omega
  rw [toEven, UInt64.toNat_sub_of_le _ _ le, raw]
  show _ - 0x100000000 = _
  omega

/-- A number reads as a key if it is the key's, or would be with an odd version. -/
theorem ofRaw_eq_iff {k : NodeKey} {n : NodeId} : ofRaw n = k ↔ n = k.toRaw ∨ n = k.toEven := by
  have small := n.toNat_lt
  have index := k.index.toNat_lt
  have odd := version_odd k
  have by32 : (32 : UInt64).toNat % 64 = 32 := rfl
  rw [NodeKey.ext_iff, ← UInt32.toNat_inj, ← UInt32.toNat_inj, ← UInt64.toNat_inj,
    ← UInt64.toNat_inj, toNat_toRaw, toNat_toEven]
  simp only [ofRaw, ofParts, toNat_or_one, UInt64.toNat_toUInt32, UInt64.toNat_shiftRight, by32,
    Nat.shiftRight_eq_div_pow]
  omega

theorem ofRaw_toRaw (k : NodeKey) : ofRaw k.toRaw = k := ofRaw_eq_iff.2 (.inl rfl)

/-- No key is told as a number with an even version. -/
theorem toEven_ne_toRaw (k k' : NodeKey) : k.toEven ≠ k'.toRaw := fun same => by
  have odd := version_odd k
  have odd' := version_odd k'
  have index := k.index.toNat_lt
  have index' := k'.index.toNat_lt
  have same := congrArg UInt64.toNat same
  rw [toNat_toEven, toNat_toRaw] at same
  omega

theorem toRaw_injective {k k' : NodeKey} (h : k.toRaw = k'.toRaw) : k = k' := by
  rw [← ofRaw_toRaw k, ← ofRaw_toRaw k', h]

end NodeKey

end TableAccess

namespace TableAccess.Arena

/-! ### Keys that were given -/

variable {α : Type} {a : Arena α} {k k' : NodeKey} {n p : Nat}

/-- No slot has come further than so many removals can bring it. -/
def Spent (a : Arena α) (n : Nat) : Prop :=
  ∀ (p : Nat) (s : Slot α), a.slots[p]? = some s → s.version.toNat ≤ 2 * n + 1

/-- The slot that a key points at has come as far as the key. -/
def Knows (a : Arena α) (k : NodeKey) : Prop :=
  ∃ p s, position? k = some p ∧ a.slots[p]? = some s ∧ k.version.toNat ≤ s.version.toNat

theorem spent_empty : (empty : Arena α).Spent n := fun _ _ h => by simp [empty] at h

theorem Spent.mono {n' : Nat} (spent : a.Spent n) (le : n ≤ n') : a.Spent n' := fun p s hs => by
  have := spent p s hs
  omega

/-- The next key is ahead of the slot it points at, but by no more than one step. -/
theorem Sound.version_nextKey (sound : a.Sound) (h : a.nextKey? = some k) {s : Slot α}
    (hp : position? k = some p) (hs : a.slots[p]? = some s) :
    s.version.toNat < k.version.toNat ∧ k.version.toNat ≤ s.version.toNat + 1 := by
  rcases nextKey?_eq_some h with ⟨q, rest, free, rfl⟩ | ⟨free, room, rfl⟩
  · obtain ⟨version, hq, hv, even⟩ := sound.versionAt_free free
    rw [position?_keyAt (sound.position_lt hq)] at hp
    cases hp
    rw [hq] at hs
    cases hs
    have step : (keyAt p (a.versionAt p)).version.toNat = 2 * (version.toNat / 2) + 1 := by
      rw [hv]
      exact toNat_or_one version
    rw [odd_iff] at even
    show version.toNat < _ ∧ _ ≤ version.toNat + 1
    omega
  · rw [position?_keyAt room] at hp
    cases hp
    simp at hs

/-- The next key was not given before. -/
theorem Sound.not_knows_nextKey (sound : a.Sound) (h : a.nextKey? = some k) : ¬a.Knows k := by
  rintro ⟨p, s, hp, hs, le⟩
  have := (sound.version_nextKey h hp hs).1
  omega

theorem Sound.knows_insert (sound : a.Sound) (h : a.nextKey? = some k) (v : α) :
    (a.insert v).Knows k := by
  obtain ⟨p, hp, -, slots⟩ := sound.next h v
  exact ⟨p, ⟨k.version, some v⟩, hp, by simp [slots], Nat.le_refl _⟩

theorem Sound.knows_insert_of (sound : a.Sound) (h : a.nextKey? = some k) (v : α)
    (knows : a.Knows k') : (a.insert v).Knows k' := by
  obtain ⟨p, hp, -, slots⟩ := sound.next h v
  obtain ⟨q, s, hq, hs, le⟩ := knows
  by_cases hpq : q = p
  · subst hpq
    refine ⟨q, ⟨k.version, some v⟩, hq, by simp [slots], ?_⟩
    have := (sound.version_nextKey h hp hs).1
    show k'.version.toNat ≤ k.version.toNat
    omega
  · exact ⟨q, s, hq, by simp [slots, hpq, hs], le⟩

theorem Sound.spent_insert (sound : a.Sound) (h : a.nextKey? = some k) (v : α)
    (spent : a.Spent n) : (a.insert v).Spent n := by
  obtain ⟨p, hp, -, slots⟩ := sound.next h v
  intro q s hq
  rw [slots] at hq
  split at hq
  · cases hq
    cases hs : a.slots[p]? with
    | none =>
      rcases nextKey?_eq_some h with ⟨q', rest, free, rfl⟩ | ⟨-, -, rfl⟩
      · obtain ⟨version, hq', -, -⟩ := sound.versionAt_free free
        rw [position?_keyAt (sound.position_lt hq')] at hp
        cases hp
        rw [hq'] at hs
        cases hs
      · show ((1 : UInt32) ||| 1).toNat ≤ _
        simp
    | some s =>
      have odd := (odd_iff _).1 k.odd
      have := sound.version_nextKey h hp hs
      have := spent _ _ hs
      show k.version.toNat ≤ _
      omega
  · exact spent _ _ hq

theorem Spent.erase (spent : a.Spent n) (k : NodeKey) : (a.erase k).Spent (n + 1) := by
  cases h : a.get? k with
  | none =>
    rw [erase_of_get?_eq_none h]
    exact spent.mono (Nat.le_succ n)
  | some v =>
    obtain ⟨p, hp, hs, e⟩ := erase_eq h
    intro q s hq
    rw [e, Array.getElem?_setIfInBounds] at hq
    split at hq
    · split at hq
      · cases hq
        have grows : (k.version + 1).toNat ≤ k.version.toNat + 1 := by
          rw [UInt32.toNat_add]
          exact Nat.mod_le _ _
        have : k.version.toNat ≤ 2 * n + 1 := spent _ _ hs
        show (k.version + 1).toNat ≤ _
        omega
      · cases hq
    · have := spent _ _ hq
      omega

/-- What was given stays known, as long as no slot has used up its versions. -/
theorem Knows.erase (knows : a.Knows k') (spent : a.Spent n) (few : n + 1 < 2 ^ 31) (k : NodeKey) :
    (a.erase k).Knows k' := by
  cases h : a.get? k with
  | none =>
    rw [erase_of_get?_eq_none h]
    exact knows
  | some v =>
    obtain ⟨p, hp, hs, e⟩ := erase_eq h
    obtain ⟨lt, -⟩ := Array.getElem?_eq_some_iff.1 hs
    obtain ⟨q, s, hq, hqs, le⟩ := knows
    by_cases hpq : p = q
    · subst hpq
      refine ⟨p, ⟨k.version + 1, none⟩, hq, by simp [e, lt], ?_⟩
      rw [hs] at hqs
      cases hqs
      have grows : (k.version + 1).toNat = k.version.toNat + 1 := by
        have : k.version.toNat ≤ 2 * n + 1 := spent _ _ hs
        rw [UInt32.toNat_add]
        exact Nat.mod_eq_of_lt (show k.version.toNat + 1 < 2 ^ 32 by omega)
      have le : k'.version.toNat ≤ k.version.toNat := le
      show k'.version.toNat ≤ (k.version + 1).toNat
      omega
    · exact ⟨q, s, hq, by simp [e, hpq, hqs], le⟩

end TableAccess.Arena

namespace TableAccess.Tree

variable {t : Tree} {k : NodeKey} {n : Nat}

theorem remove_nodes (t : Tree) (k : NodeKey) : (t.remove k).nodes = t.nodes.erase k := by
  unfold remove
  split
  · exact (Arena.erase_of_get?_eq_none ‹_›).symm
  · rfl

theorem spent_removeTable (spent : t.nodes.Spent n) (table : NodeKey) :
    (t.removeTable table).nodes.Spent (n + (t.keysOf table).length) := by
  unfold removeTable
  generalize t.keysOf table = keys
  induction keys generalizing t n with
  | nil => exact spent
  | cons k rest ih =>
    have first : (t.remove k).nodes.Spent (n + 1) := by
      rw [remove_nodes]
      exact spent.erase k
    rw [List.foldl_cons, List.length_cons, Nat.add_comm rest.length, ← Nat.add_assoc]
    exact ih first

theorem knows_removeTable (knows : t.nodes.Knows k) (spent : t.nodes.Spent n) (table : NodeKey)
    (few : n + (t.keysOf table).length < 2 ^ 31) : (t.removeTable table).nodes.Knows k := by
  unfold removeTable
  revert few
  generalize t.keysOf table = keys
  induction keys generalizing t n with
  | nil => exact fun _ => knows
  | cons k' rest ih =>
    intro few
    rw [List.length_cons] at few
    have kept : (t.remove k').nodes.Knows k := by
      rw [remove_nodes]
      exact knows.erase spent (by omega) k'
    have first : (t.remove k').nodes.Spent (n + 1) := by
      rw [remove_nodes]
      exact spent.erase k'
    exact ih kept first (by omega)

end TableAccess.Tree
