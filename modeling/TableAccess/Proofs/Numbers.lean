import TableAccess.Proofs.Recycling

/-!
# Keys as numbers

Outside the tree a key is a number of 64 bits, the version of the slot above its index. A version is
odd, so bit 32 of the number of a key is always set, and a number that is read as a key has this bit
set first. Nothing else is lost: which numbers read as the same key, and which ids a tree gives its
nodes, is decided by the other 63 bits.

## The model

* `toRaw_ofRaw` — what reading a number and telling it again comes to.
* `ofRaw_eq_ofRaw_iff` — which numbers read as the same key.
* `NodeKey.Encoding` — how keys and numbers go over into each other.
* `raw_ids_encode_keys` — the main statement.
-/

namespace TableAccess

variable {μ : Type} {tree : Tree} {k k' : NodeKey} {a b : Adapter}

namespace NodeKey

/-- The index is the lower half of the number of a key, the version the upper half. -/
theorem testBit_toRaw (k : NodeKey) (i : Nat) : k.toRaw.toNat.testBit i =
    if i < 32 then k.index.toNat.testBit i else k.version.toNat.testBit (i - 32) := by
  rw [toNat_toRaw, Nat.mul_comm]
  exact Nat.testBit_two_pow_mul_add _ k.index.toNat_lt i

theorem testBit_index_ofRaw (n : NodeId) {i : Nat} (low : i < 32) :
    (ofRaw n).index.toNat.testBit i = n.toNat.testBit i := by
  show n.toUInt32.toNat.testBit i = _
  rw [UInt64.toNat_toUInt32, Nat.testBit_mod_two_pow, decide_eq_true low, Bool.true_and]

theorem testBit_version_ofRaw (n : NodeId) (i : Nat) :
    (ofRaw n).version.toNat.testBit i = (n.toNat.testBit (32 + i) || decide (0 = i)) := by
  have by32 : (32 : UInt64).toNat % 64 = 32 := rfl
  have high : n.toNat >>> 32 < 2 ^ 32 := by
    have := n.toNat_lt
    rw [Nat.shiftRight_eq_div_pow]
    omega
  show ((n >>> 32).toUInt32 ||| 1).toNat.testBit i = _
  rw [UInt32.toNat_or, UInt64.toNat_toUInt32, UInt64.toNat_shiftRight, by32, Nat.mod_eq_of_lt high,
    Nat.testBit_or, Nat.testBit_shiftRight]
  exact congrArg _ (Nat.testBit_two_pow (n := 0) (m := i))

/-- Read as a key and told again, a number has bit 32 set, -/
theorem testBit_toRaw_ofRaw (n : NodeId) (i : Nat) :
    (ofRaw n).toRaw.toNat.testBit i = (n.toNat.testBit i || decide (32 = i)) := by
  rw [testBit_toRaw]
  split
  · next low =>
    have other : ¬32 = i := by omega
    rw [testBit_index_ofRaw n low, decide_eq_false other, Bool.or_false]
  · next high =>
    have place : 32 + (i - 32) = i := by omega
    have same : 0 = i - 32 ↔ 32 = i := by omega
    rw [testBit_version_ofRaw, place, decide_eq_decide.2 same]

/-- and is the same otherwise. -/
theorem toRaw_ofRaw (n : NodeId) : (ofRaw n).toRaw = n ||| 0x100000000 := by
  have bit : (0x100000000 : UInt64).toNat = 2 ^ 32 := rfl
  apply UInt64.toNat_inj.1
  apply Nat.eq_of_testBit_eq
  intro i
  rw [testBit_toRaw_ofRaw, UInt64.toNat_or, bit, Nat.testBit_or, Nat.testBit_two_pow]

/-- Two numbers read as the same key if they are the same but for bit 32. -/
theorem ofRaw_eq_ofRaw_iff (n n' : NodeId) :
    ofRaw n = ofRaw n' ↔ ∀ i, i ≠ 32 → n.toNat.testBit i = n'.toNat.testBit i := by
  constructor
  · intro same i other
    have bits := testBit_toRaw_ofRaw n i
    rw [same, testBit_toRaw_ofRaw, decide_eq_false (Ne.symm other), Bool.or_false,
      Bool.or_false] at bits
    exact bits.symm
  · intro agree
    apply toRaw_injective
    apply UInt64.toNat_inj.1
    apply Nat.eq_of_testBit_eq
    intro i
    rw [testBit_toRaw_ofRaw, testBit_toRaw_ofRaw]
    by_cases here : 32 = i
    · rw [decide_eq_true here, Bool.or_true, Bool.or_true]
    · rw [agree i (Ne.symm here)]

/-- How keys are told as numbers, and numbers are read as keys. -/
structure Encoding : Prop where
  /-- Reading undoes telling, for a key of any index and any odd version. -/
  reads : ∀ k : NodeKey, ofRaw k.toRaw = k
  /-- Telling undoes reading but for bit 32, which is set. -/
  tells : ∀ n : NodeId, (ofRaw n).toRaw = n ||| 0x100000000
  /-- A number that was read and told reads as the same key again. -/
  settles : ∀ n : NodeId, ofRaw (ofRaw n).toRaw = ofRaw n
  /-- Two numbers read as the same key if they are the same in every bit, except possibly bit 32. -/
  collapses : ∀ n n' : NodeId,
    ofRaw n = ofRaw n' ↔ ∀ i, i ≠ 32 → n.toNat.testBit i = n'.toNat.testBit i
  /-- Different keys are told as different numbers. -/
  injective : Function.Injective toRaw

end NodeKey

/-- Nodes of a tree with the same id are the same node. -/
theorem Tree.Indexed.eq_of_toRaw (sound : tree.Indexed) (ha : tree.get? k = some a)
    (hb : tree.get? k' = some b) (same : a.key.toRaw = b.key.toRaw) : a = b := by
  rw [← sound.key ha] at ha
  rw [← sound.key hb, ← NodeKey.toRaw_injective same, ha] at hb
  exact Option.some.inj hb

/-- Numbers are faithful to keys. A key of any index and any odd version is read back from its number;
a number read as a key is told again with bit 32 set and otherwise as it was, so two numbers read as
the same key exactly if they agree in every other bit; and no two keys have one number. So different
nodes that are in a tree at any moment have different ids. -/
theorem raw_ids_encode_keys : NodeKey.Encoding ∧ ∀ {m : Moment μ} {t : TreeId} {tree : Tree}
    {k k' : NodeKey} {a b : Adapter}, m.Lived → m.world.trees[t]? = some tree →
      tree.get? k = some a → tree.get? k' = some b → a ≠ b → a.key.toRaw ≠ b.key.toRaw := by
  refine ⟨⟨NodeKey.ofRaw_toRaw, NodeKey.toRaw_ofRaw, fun n => NodeKey.ofRaw_toRaw _,
    NodeKey.ofRaw_eq_ofRaw_iff, fun _ _ same => NodeKey.toRaw_injective same⟩, ?_⟩
  intro m t tree k k' a b lived ht ha hb different same
  exact different ((lived.coherent ht).indexed.eq_of_toRaw ha hb same)

/-- A table and its first row have different ids. -/
theorem raw_ids_encode_keys_row : ∃ (m : Moment Unit) (tree : Tree) (a b : Adapter),
    m.Lived ∧ m.world.trees[0]? = some tree ∧ tree.get? a.key = some a ∧
      tree.get? b.key = some b ∧ a.key.toRaw ≠ b.key.toRaw := by
  obtain ⟨m₀, lived₀, e, -⟩ := Moment.lived_of_cell () (.client 0)
  obtain ⟨row, made⟩ : ∃ row : Adapter,
      row = ⟨Arena.keyAt 1 1, .row (Arena.keyAt 0 1) 0, some (Arena.keyAt 0 1), 0, 0⟩ := ⟨_, rfl⟩
  have ht₀ : m₀.world.trees[0]? = some ((Tree.empty 0).add .firstTable) := by rw [e]; rfl
  obtain ⟨free, next, stored, table, differ⟩ :
      ((Tree.empty 0).add .firstTable).find? row.identity = none ∧
      ((Tree.empty 0).add .firstTable).nodes.nextKey? = some row.key ∧
      (((Tree.empty 0).add .firstTable).add row).get? row.key = some row ∧
      (((Tree.empty 0).add .firstTable).add row).get? Adapter.firstTable.key = some .firstTable ∧
      Adapter.firstTable ≠ row := by
    subst made
    decide +kernel
  have known : .made .firstTable ∈ m₀.past :=
    lived₀.keyed.stored (k := Adapter.firstTable.key) ht₀ (by decide +kernel)
  subst made
  obtain ⟨m, makes, ht⟩ : ∃ m, m₀.Step m ∧
      m.world.trees[0]? = some (((Tree.empty 0).add .firstTable).add
        ⟨Arena.keyAt 1 1, .row (Arena.keyAt 0 1) 0, some (Arena.keyAt 0 1), 0, 0⟩) :=
    ⟨_, .trees (.make ht₀ free next known rfl rfl (.row _ 0)), by simp [ht₀]; rfl⟩
  have lived := lived₀.goes makes.goes
  exact ⟨m, _, .firstTable, _, lived, ht, table, stored,
    raw_ids_encode_keys.2 lived ht table stored differ⟩

end TableAccess
