/-!
# Node keys

A node is named by the slot it lives in and by the version of that slot. A slot's version is odd
while a node lives there, so every key has an odd version. To the outside a key is one 64-bit
number, the version above the slot's index; a number from outside is read back with its version made
odd, and need not name any node.

## The model

* `NodeKey` — index and version, the version odd.
* `toRaw`, `ofRaw` — the 64-bit number of a key, and the key a number reads as.
-/

namespace TableAccess

/-- Names a node in the accessibility tree. -/
abbrev NodeId := UInt64

/-- Names a node by its slot. -/
@[ext] structure NodeKey where
  /-- The slot. -/
  index : UInt32
  /-- The version of the slot while the node lives there. -/
  version : UInt32
  /-- A slot with a node in it has an odd version. -/
  odd : version &&& 1 = 1
deriving DecidableEq, Repr

namespace NodeKey

theorem or_one_and_one (v : UInt32) : (v ||| 1) &&& 1 = 1 := by
  apply UInt32.toBitVec_inj.1
  apply BitVec.eq_of_getLsbD_eq
  intro i _
  simp only [UInt32.toBitVec_and, UInt32.toBitVec_or, BitVec.getLsbD_and, BitVec.getLsbD_or]
  cases v.toBitVec.getLsbD i <;> cases (1 : UInt32).toBitVec.getLsbD i <;> rfl

/-- The key with this index and the version made odd. -/
def ofParts (index version : UInt32) : NodeKey := ⟨index, version ||| 1, or_one_and_one version⟩

/-- The 64-bit number of a key. -/
def toRaw (k : NodeKey) : NodeId := (k.version.toUInt64 <<< 32) ||| k.index.toUInt64

/-- The key that a 64-bit number reads as. -/
def ofRaw (raw : NodeId) : NodeKey := ofParts raw.toUInt32 (raw >>> 32).toUInt32

/-- The debug text: index and version, or `null` for the index that no slot has. -/
def debugText (k : NodeKey) : String :=
  if k.index = 0xFFFFFFFF then "NodeKey(null)"
  else "NodeKey(" ++ toString k.index.toNat ++ "v" ++ toString k.version.toNat ++ ")"

end NodeKey

end TableAccess
