import TableAccess.NodeKey

/-!
# Arenas

An arena keeps values in slots and names them by keys. A slot's version is odd while it holds a
value and even while it is free; it grows by one with every change, so the key of a removed value
finds nothing, also after the slot is used again. A removed value's slot is the first to be used
again. Slots are counted from one; the slot with index zero is never used, and neither is the last
index, which stands for no key at all.

## The model

* `Slot` — a version and the value, if there is one.
* `Arena` — the slots in order of their index, and the free ones, the one freed last in front.
* `get?` — the value under a key; the other operations are told by what they do to it.
* `nextKey?`, `insert` — the key the next value gets, and the arena with a value under it.
-/

namespace TableAccess

/-- A place for one value. -/
structure Slot (α : Type) where
  /-- How often the slot was filled and emptied; odd while it is filled. -/
  version : UInt32
  /-- The value that lives here. -/
  content : Option α
deriving Repr

/-- Values in slots. -/
structure Arena (α : Type) where
  /-- The slots; the first one has index 1. -/
  slots : Array (Slot α)
  /-- The positions of the free slots in the array of slots, the one freed last in front. -/
  free : List Nat
deriving Repr

namespace Arena

variable {α : Type}

def empty : Arena α := ⟨#[], []⟩

/-- The key of a value that lives at a position of the array of slots. -/
def keyAt (position : Nat) (version : UInt32) : NodeKey :=
  .ofParts (UInt32.ofNat (position + 1)) version

/-- The position a key points at; index zero points nowhere. -/
def position? (k : NodeKey) : Option Nat :=
  match k.index.toNat with
  | 0 => none
  | p + 1 => some p

/-- The value under a key. -/
def get? (a : Arena α) (k : NodeKey) : Option α := do
  let p ← position? k
  let s ← a.slots[p]?
  if s.version = k.version then s.content else none

/-- How many slots there can be: all 32-bit indices but the first and the last. -/
def maxSlots : Nat := 0xFFFFFFFE

/-- The version of the slot at a position. -/
def versionAt (a : Arena α) (position : Nat) : UInt32 :=
  (a.slots[position]?.map Slot.version).getD 0

/-- The key that the next value gets: that of the slot freed last, or of a new slot when none is
free; `none` when there is no room. -/
def nextKey? (a : Arena α) : Option NodeKey :=
  match a.free with
  | p :: _ => some (keyAt p (a.versionAt p))
  | [] => if a.slots.size < maxSlots then some (keyAt a.slots.size 1) else none

/-- Puts a value under the next key. Nothing changes when there is no room. -/
def insert (a : Arena α) (v : α) : Arena α :=
  match a.free with
  | p :: free =>
    let version := a.versionAt p ||| 1
    ⟨a.slots.setIfInBounds p ⟨version, some v⟩, free⟩
  | [] => if a.slots.size < maxSlots then ⟨a.slots.push ⟨1, some v⟩, []⟩ else a

/-- Removes the value under a key, if there is one. -/
def erase (a : Arena α) (k : NodeKey) : Arena α :=
  match a.get? k, position? k with
  | some _, some p => ⟨a.slots.setIfInBounds p ⟨k.version + 1, none⟩, p :: a.free⟩
  | _, _ => a

/-- The keys and values, in order of their slots. -/
def toList (a : Arena α) : List (NodeKey × α) :=
  a.slots.toList.zipIdx.filterMap fun (s, p) => s.content.map fun v => (keyAt p s.version, v)

/-- The values, in order of their slots. -/
def values (a : Arena α) : List α := a.toList.map Prod.snd

/-- How many values there are. -/
def size (a : Arena α) : Nat := a.toList.length

end Arena

end TableAccess
