import TableAccess.Panic

/-!
# Room for lists

A list whose length is known beforehand gets all its room at once, as one block of memory. No block
is longer than the largest signed 64-bit number, so a list that would need a longer one panics
before its first item is made.

## The model

* `Room.Item` — what lists are made of, `Item.size` the bytes one item takes.
* `Room.Fits` — so many items find room in one block.
* `Room.check` — the panic when they do not.

The main statement is `fits_of_lt`: no list shorter than `2 ^ 32` is ever refused, and so none that
names the nodes of one tree.
-/

namespace TableAccess.Room

/-- What lists are made of. -/
inductive Item where
  /-- Nodes of one kind. -/
  | node
  /-- Nodes of any kind. -/
  | anyNode
  /-- Texts, each of which may be missing. -/
  | text
  /-- Rows of texts. -/
  | row
  /-- Messages of a queue. -/
  | message
deriving DecidableEq, Repr

/-- The bytes one item takes. -/
def Item.size : Item → Nat
  | .node => 8
  | .anyNode => 16
  | .text => 24
  | .row => 24
  | .message => 24

/-- The bytes of the longest block of memory. -/
def longestBlock : Nat := 0x7FFFFFFFFFFFFFFF

/-- So many items find room in one block. -/
def Fits (item : Item) (count : Nat) : Prop := item.size * count ≤ longestBlock

instance (item : Item) (count : Nat) : Decidable (Fits item count) :=
  inferInstanceAs (Decidable (item.size * count ≤ longestBlock))

/-- The panic of a list that finds no room. -/
def overflow : Panic := ⟨"capacity overflow"⟩

/-- Panics when so many items find no room. -/
def check (item : Item) (count : Nat) : Except Panic Unit :=
  if Fits item count then .ok () else .error overflow

theorem check_eq_ok_iff {item : Item} {count : Nat} :
    check item count = .ok () ↔ Fits item count := by
  unfold check
  split <;> simp_all

/-- Where a list finds room, a shorter one does. -/
theorem Fits.mono {item : Item} {m n : Nat} (h : Fits item n) (le : m ≤ n) : Fits item m :=
  Nat.le_trans (Nat.mul_le_mul_left item.size le) h

/-- A list shorter than `2 ^ 32` finds room, whatever it is made of. -/
theorem fits_of_lt {item : Item} {count : Nat} (h : count < 0x100000000) : Fits item count := by
  unfold Fits longestBlock
  cases item <;> simp only [Item.size] <;> omega

end TableAccess.Room
