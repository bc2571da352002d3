import Mathlib.Data.Fintype.Card
import TableAccess.Proofs.Attaching
import TableAccess.Proofs.Nodes

/-!
# Censuses

A table may answer as it likes, differently from one time to the next, and may panic. A census bounds
what comes of it: which rows and columns may come up, and which identities may get a node in a tree.
If a tree has a slot for each of them no request panics, on whatever thread it is made and whatever
its context makes of it; attaching one more table needs one more slot.

## The model

* `Arena.Sound.slot_filled` — an arena that takes no more values has one under each of its keys.
* `Census` — the tables behind the peers, what they may answer, and the nodes that may be made.
* `Census.Holds` — a world in which all is as the census says; this is all that a thread may count on
  when it goes on.
* `Census.request_does_not_panic`, `Census.Holds.attached` — what follows.
-/

namespace TableAccess

variable {μ α : Type}

/-! ### Trees that take no more nodes -/

/-- In an arena that takes no more values every slot is filled. -/
theorem Arena.Sound.slot_filled {a : Arena α} (sound : a.Sound) (full : a.nextKey? = none) {p : Nat}
    (lt : p < maxSlots) : ∃ k v, position? k = some p ∧ a.get? k = some v := by
  have all : a.free = [] ∧ maxSlots ≤ a.slots.size := by
    unfold nextKey? at full
    split at full
    · cases full
    · refine ⟨‹_›, Nat.le_of_not_lt fun room => ?_⟩
      rw [if_pos room] at full
      cases full
  have hs := Array.getElem?_eq_getElem (Nat.lt_of_lt_of_le lt all.2)
  generalize a.slots[p] = s at hs
  obtain ⟨version, content⟩ := s
  cases content with
  | none =>
    have free := sound.free.2 ⟨version, hs⟩
    rw [all.1] at free
    cases free
  | some v =>
    have odd := (sound.filled hs).1 rfl
    have place := position?_keyAt lt version
    refine ⟨keyAt p version, v, place, get?_eq_some_iff.2 ⟨p, place, ?_⟩⟩
    rw [version_keyAt odd, hs]

/-- A tree that takes no more nodes has as many as there are slots. -/
theorem Tree.Indexed.maxSlots_le {tree : Tree} {nodes : Finset Identity} (h : tree.Indexed)
    (among : ∀ k a, tree.get? k = some a → a.identity ∈ nodes)
    (full : tree.nodes.nextKey? = none) : Arena.maxSlots ≤ nodes.card := by
  choose key node place stored using fun p : Fin Arena.maxSlots => h.arena.slot_filled full p.isLt
  rw [← Fintype.card_fin Arena.maxSlots, ← Finset.card_univ]
  refine Finset.card_le_card_of_injOn (fun p => (node p).identity)
    (fun p _ => among _ _ (stored p)) fun p _ q _ same => ?_
  have one := h.eq_of_identity (stored p) (stored q) same
  have places := (place p).symm.trans (one ▸ place q)
  exact Fin.ext (Option.some.inj places)

/-- A tree with a slot for each identity takes a node for one that has none yet. -/
theorem Tree.Indexed.nextKey?_ne_none {tree : Tree} {nodes : Finset Identity} {i : Identity}
    (h : tree.Indexed) (few : nodes.card ≤ Arena.maxSlots)
    (among : ∀ k a, tree.get? k = some a → a.identity ∈ nodes) (mem : i ∈ nodes)
    (new : tree.find? i = none) : tree.nodes.nextKey? ≠ none := by
  intro full
  have others : ∀ k a, tree.get? k = some a → a.identity ∈ nodes.erase i := fun k a ha =>
    Finset.mem_erase.2 ⟨h.find?_eq_none_iff.1 new k a ha, among k a ha⟩
  have slots := h.maxSlots_le others full
  have fewer := Finset.card_erase_lt_of_mem mem
  omega

/-! ### What may come up -/

/-- The tables behind the peers, what they may answer, and what may get a node. -/
structure Census where
  /-- The table that a peer refers to. -/
  table : PeerId → TableId
  /-- A table may answer a question so. -/
  answers : TableId → (q : Question) → q.Answer → Prop
  /-- A row of a table may come up. -/
  Rows : TableId → Nat → Prop
  /-- A column of a table may come up. -/
  Columns : TableId → Nat → Prop
  /-- What may get a node in a tree. -/
  nodes : TreeId → Finset Identity
  /-- So many trees are there. -/
  trees : Nat
  /-- So many bridges are there. -/
  bridges : Nat
  /-- The rows that a table counts are among them, -/
  rows : ∀ {t n}, answers t .rowCount n → ∀ row < n, Rows t row
  /-- and so are the columns. -/
  columns : ∀ {t n}, answers t .columnCount n → ∀ column < n, Columns t column
  /-- A tree has a slot for each of its nodes. -/
  fits : ∀ t, (nodes t).card ≤ Arena.maxSlots

namespace Census

variable (s : Census)

/-- All rows, columns and cells of a table may get a node in a tree. -/
structure Family (t : TreeId) (k : NodeKey) (p : PeerId) : Prop where
  /-- The tree is there. -/
  planted : t < s.trees
  row : ∀ {row : Nat}, s.Rows (s.table p) row → .row k row ∈ s.nodes t
  column : ∀ {column : Nat}, s.Columns (s.table p) column → .column k column ∈ s.nodes t
  cell : ∀ {row column : Nat}, s.Rows (s.table p) row → s.Columns (s.table p) column →
    .cell k row column ∈ s.nodes t

/-- What may come up according to a census; no table is attached. -/
def scope : Scope :=
  { Scope.any with
    Family := s.Family
    Refers := fun p t _ => t = s.table p
    Answers := fun p => s.answers (s.table p)
    Rows := fun p => s.Rows (s.table p)
    Columns := fun p => s.Columns (s.table p)
    Planted := (· < s.trees)
    Reaches := fun t _ => t < s.trees
    Attachable := fun _ _ => False
    Spans := (· < s.bridges)
    Over := fun _ t => t < s.trees }

/-- A node may be in a tree. -/
structure Lists (t : TreeId) (a : Adapter) : Prop where
  /-- It is one of those that may be made. -/
  mem : a.identity ∈ s.nodes t
  /-- Others may be reached through it. -/
  node : s.scope.Node t a

/-- All is as a census says, whatever the contexts are at. -/
structure Holds (w : World μ) : Prop where
  /-- The clock can tell until when a context is to be waited for. -/
  timeouts : ∀ {c : ContextId} {context : Context Ticket}, w.contexts[c]? = some context →
    context.timeout.FitsClock w.clock
  /-- Peers refer to their tables. -/
  peers : ∀ {p : PeerId} {peer : Peer}, w.peers[p]? = some peer → peer.table = s.table p
  /-- Tables answer as they may. -/
  tables : ∀ {t : TableId} {table : Table}, w.table? t = some table → table.Always (s.answers t)
  /-- The trees are there, -/
  planted : s.trees ≤ w.trees.length
  /-- their nodes and identities agree, -/
  indexed : ∀ {t : TreeId} {tree : Tree}, w.trees[t]? = some tree → tree.Indexed
  /-- and they are those that may be made. -/
  listed : ∀ {t : TreeId} {tree : Tree} {k : NodeKey} {a : Adapter}, t < s.trees →
    w.trees[t]? = some tree → tree.get? k = some a → s.Lists t a
  /-- The bridges are there, -/
  spanned : s.bridges ≤ w.bridges.length
  /-- and so are their trees. -/
  spans : ∀ {b : BridgeId} {bridge : Bridge}, w.bridges[b]? = some bridge → bridge.tree < s.trees

variable {s} {w : World μ} {t : TreeId} {k : NodeKey} {p : PeerId} {tree : Tree} {a : Adapter}
  {i : Identity}

theorem Family.mem (family : s.Family t i.tableKey p) (within : s.scope.Within p i) :
    i ∈ s.nodes t := by
  cases i with
  | table => cases within
  | row => exact family.row within
  | column => exact family.column within
  | cell => exact family.cell within.1 within.2

/-- Rows and columns together are no more than there are slots. -/
theorem Family.add_le (family : s.Family t k p) {rows columns : Nat}
    (rowsMay : ∀ row < rows, s.Rows (s.table p) row)
    (columnsMay : ∀ column < columns, s.Columns (s.table p) column) :
    rows + columns ≤ Arena.maxSlots := by
  let inRows := (Finset.range rows).image (Identity.row k)
  let inColumns := (Finset.range columns).image (Identity.column k)
  have apart : Disjoint inRows inColumns := by
    rw [Finset.disjoint_left]
    intro i mem mem'
    obtain ⟨row, -, rfl⟩ := Finset.mem_image.1 mem
    obtain ⟨column, -, same⟩ := Finset.mem_image.1 mem'
    cases same
  have made : inRows ∪ inColumns ⊆ s.nodes t := by
    intro i mem
    rcases Finset.mem_union.1 mem with mem | mem
    · obtain ⟨row, lt, rfl⟩ := Finset.mem_image.1 mem
      exact family.row (rowsMay row (Finset.mem_range.1 lt))
    · obtain ⟨column, lt, rfl⟩ := Finset.mem_image.1 mem
      exact family.column (columnsMay column (Finset.mem_range.1 lt))
  calc rows + columns
      = inRows.card + inColumns.card := by
        rw [Finset.card_image_of_injective _ fun _ _ same => by cases same; rfl,
          Finset.card_image_of_injective _ fun _ _ same => by cases same; rfl, Finset.card_range,
          Finset.card_range]
    _ = (inRows ∪ inColumns).card := (Finset.card_union_of_disjoint apart).symm
    _ ≤ (s.nodes t).card := Finset.card_le_card made
    _ ≤ Arena.maxSlots := s.fits t

/-- So a list of them finds room. -/
theorem Family.fits (family : s.Family t k p) {rows columns : Nat}
    (rowsMay : ∀ row < rows, s.Rows (s.table p) row)
    (columnsMay : ∀ column < columns, s.Columns (s.table p) column) (item : Room.Item) :
    Room.Fits item (rows + columns) := by
  refine Room.fits_of_lt ?_
  have slots := family.add_le rowsMay columnsMay
  unfold Arena.maxSlots at slots
  omega

namespace Holds

variable (h : s.Holds w)

include h

/-- Some table is asked. -/
theorem ask {t : TableId} {table : Table} (ht : w.table? t = some table) (checksOn : Bool)
    (now : Thread) (q : Question) :
    s.Holds (w.setTable t (some (table.ask checksOn now q).2)) where
  timeouts := h.timeouts
  peers := h.peers
  tables {t' table'} ht' := by
    rw [World.table?_setTable ht] at ht'
    by_cases same : t' = t
    · subst same
      rw [if_pos rfl] at ht'
      cases ht'
      exact (h.tables ht).ask checksOn now q
    · rw [if_neg same] at ht'
      exact h.tables ht'
  planted := h.planted
  indexed := h.indexed
  listed := h.listed
  spanned := h.spanned
  spans := h.spans

/-- A peer is latched. -/
theorem latch (p : PeerId) :
    s.Holds { w with peers := w.peers.modify p ({ · with invalidated := true }) } where
  timeouts := h.timeouts
  peers {p' peer} hp' := by
    obtain ⟨before, hp, table, -⟩ := World.peer_of_latched hp'
    exact table.trans (h.peers hp)
  tables := h.tables
  planted := h.planted
  indexed := h.indexed
  listed := h.listed
  spanned := h.spanned
  spans := h.spans

/-- A tree comes to have other nodes, all of which may be made. -/
theorem modifyTree (ht : w.trees[t]? = some tree) {f : Tree → Tree} (indexed : (f tree).Indexed)
    (listed : ∀ {k a}, t < s.trees → (f tree).get? k = some a → s.Lists t a) :
    s.Holds (w.modifyTree t f) where
  timeouts := h.timeouts
  peers := h.peers
  tables := h.tables
  planted := by
    show _ ≤ (w.trees.modify t f).length
    rw [List.length_modify]
    exact h.planted
  indexed {t' tree'} ht' := by
    rw [World.getElem?_modifyTree ht] at ht'
    split at ht'
    · cases ht'
      exact indexed
    · exact h.indexed ht'
  listed {t' tree' k a} there ht' ha := by
    rw [World.getElem?_modifyTree ht] at ht'
    split at ht'
    · cases ht'
      subst t'
      exact listed there ha
    · exact h.listed there ht' ha
  spanned := h.spanned
  spans := h.spans

/-- A node is added that may be made. -/
theorem add (ht : w.trees[t]? = some tree) (next : tree.nodes.nextKey? = some a.key)
    (new : tree.find? a.identity = none) (lists : s.Lists t a) :
    s.Holds (w.modifyTree t (·.add a)) := by
  refine h.modifyTree ht ((h.indexed ht).add next new) fun {k b} there hb => ?_
  rw [(h.indexed ht).get?_add next] at hb
  split at hb
  · cases hb
    exact lists
  · exact h.listed there ht hb

/-- A table is taken out. -/
theorem removeTable (k : NodeKey) : s.Holds (w.modifyTree t (·.removeTable k)) := by
  cases ht : w.trees[t]? with
  | none =>
    rw [World.modifyTree_of_none ht]
    exact h
  | some tree =>
    refine h.modifyTree ht ((h.indexed ht).removeTable k) fun there ha => ?_
    exact h.listed there ht ((h.indexed ht).of_removeTable ha).1

/-- A bridge gets a root. -/
theorem root (b : BridgeId) (k : NodeKey) :
    s.Holds { w with bridges := w.bridges.modify b ({ · with root := some k }) } where
  timeouts := h.timeouts
  peers := h.peers
  tables := h.tables
  planted := h.planted
  indexed := h.indexed
  listed := h.listed
  spanned := by
    show _ ≤ (w.bridges.modify b _).length
    rw [List.length_modify]
    exact h.spanned
  spans {b' bridge} hb := by
    obtain ⟨before, there, tree, -⟩ := World.bridge_of_rooted hb
    exact tree ▸ h.spans there

end Holds

/-! ### Requests -/

/-- All is as a census says whenever a thread goes on, and is left so. -/
theorem deeds (s : Census) :
    s.scope.Deeds (.keeping s.Holds : Conduct μ) fun _ => False where
  plain := ⟨id, fun _ _ along => { along.leaves with }⟩
  refers along _ hp := along.leaves.peers hp
  latched _ _ _ := trivial
  nobody _ _ := trivial
  gone _ := trivial
  asks along _ refers ht q := by
    subst refers
    exact ⟨⟨along.thread, along.leaves.ask ht _ _ q⟩,
      fun answer e => (along.leaves.tables ht).answers .new e⟩
  invalidates along _ _ _ := ⟨along.thread, { along.leaves.latch _ with }⟩
  overruns along _ _ hc late := late (along.leaves.timeouts hc)
  judges _ _ _ := ⟨fun _ => trivial, fun _ _ => trivial⟩
  absent _ _ _ _ := trivial
  planted {_ w t} along planted none := by
    have there : t < s.trees := planted
    exact Nat.not_lt.2 (Nat.le_trans along.leaves.planted (List.getElem?_eq_none_iff.1 none)) there
  home family := family.planted
  reader _ := trivial
  grown planted := planted
  stored along planted ht ha := (along.leaves.listed planted ht ha).node
  found along family ht found := by
    obtain ⟨stored, -⟩ := (along.leaves.indexed ht).find?_eq_some_iff.1 found
    exact (along.leaves.listed family.planted ht stored).node
  listed along all ht mem :=
    (along.leaves.listed (all (.ofRaw 0)) ht ((along.leaves.indexed ht).get?_of_mem_tables mem)).node
  invalid _ _ _ _ _ := trivial
  adds {_ _ t tree p i k} along family within ht new next := by
    exact ⟨fun parent _ => ⟨along.thread, along.leaves.add ht next new ⟨Family.mem family within, family,
      fun isTable => absurd isTable within.ne_table, .inr within, id, Iff.rfl⟩⟩, fun _ => id⟩
  full along family within ht new next := by
    refine (along.leaves.indexed ht).nextKey?_ne_none (s.fits _) (fun k a ha => ?_)
      (Family.mem family within) new next
    exact (along.leaves.listed family.planted ht ha).mem
  rows answers := s.rows answers
  columns answers := s.columns answers
  rowsOverflow {_ _ _ n} family answers long := by
    have fits := Family.fits family (s.rows answers) (fun _ none => absurd none (Nat.not_lt_zero _)) .node
    exact long fits
  columnsOverflow {_ _ _ n} family answers long := by
    have fits := Family.fits family (fun _ none => absurd none (Nat.not_lt_zero _))
      (s.columns answers) .node
    rw [Nat.zero_add] at fits
    exact long fits
  childrenOverflow family rows columns long :=
    long (Family.fits family (s.rows rows) (s.columns columns) _)
  detaches along _ := ⟨along.thread, along.leaves.removeTable _⟩
  attaches _ attachable := attachable.elim
  becomes attachable := attachable.elim
  attachesFull _ attachable := attachable.elim
  spans {_ w b} along spans := by
    have there : b < s.bridges := spans
    split
    · rename_i none
      exact Nat.not_lt.2 (Nat.le_trans along.leaves.spanned (List.getElem?_eq_none_iff.1 none)) there
    · exact ⟨along.leaves.spans ‹_›, fun _ _ => trivial⟩
  spanned isOver := isOver
  roots along _ _ := ⟨along.thread, along.leaves.root _ _⟩

/-- No request panics on its caller, and after it all is still as the census says. -/
theorem request_does_not_panic {request : Request} (admitted : s.scope.Admits request) :
    request.act.Keeps (.keeping s.Holds : Conduct μ) (fun _ => False) fun _ => True :=
  s.deeds.request admitted

/-! ### Attaching tables -/

/-- A tree with a slot to spare takes one more table, whatever the table is like. -/
theorem Holds.attached {table : TableId} {w' : World μ} {result : Except Panic Adapter}
    (h : s.Holds w) (planted : t < s.trees) (room : (s.nodes t).card < Arena.maxSlots)
    (attached : Attached t table w result w') : ∃ a, result = .ok a := by
  cases attached with
  | absent ht =>
    exact absurd planted (Nat.not_lt.2 (Nat.le_trans h.planted (List.getElem?_eq_none_iff.1 ht)))
  | found | made => exact ⟨_, rfl⟩
  | full ht next =>
    have slots := (h.indexed ht).maxSlots_le (fun k a ha => (h.listed planted ht ha).mem) next
    omega

/-- So does the tree of a bridge. -/
theorem Holds.attached_bridge {table : TableId} {b : BridgeId} {w' : World μ}
    {result : Except Panic Adapter} (h : s.Holds w) (there : b < s.bridges)
    (room : ∀ t < s.trees, (s.nodes t).card < Arena.maxSlots)
    (attached : Bridge.Attached b table w result w') : ∃ a, result = .ok a := by
  cases attached with
  | absent none =>
    have spanned := Nat.le_trans h.spanned (List.getElem?_eq_none_iff.1 none)
    exact absurd there (Nat.not_lt.2 spanned)
  | attached hb attached => exact h.attached (h.spans hb) (room _ (h.spans hb)) attached
  | root => exact ⟨_, rfl⟩

end Census

end TableAccess
