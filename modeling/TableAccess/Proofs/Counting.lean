import TableAccess.Proofs.Routes
import TableAccess.Proofs.Sizes

/-!
# Counting and listing

A node is asked more often how many children it has than which. The number is read from the table; the
list has to have a node for each child, and makes those that are missing. As long as the contents stay
the two agree, whichever nodes there are; and nothing but the list makes any.

## The model

* `Grid.count?` — how many children a node has, if its part is there.
* `Stage.Sees` — an act comes to its value, and leaves the tree as it is.
* `Adapter.Accessor` — what a node is asked that is about no other nodes.
* `Tree.Adds` — a tree has more nodes, for parts that had none.
* `Brings.childCount`, `Brings.childrenAgain` — the number, and the list when all of it is there.
* `Stage.Counts` — both agree; `counting_agrees_with_listing` — the main statement.
-/

namespace TableAccess

variable {μ α β : Type} {R : World μ → World μ → Prop} {w w' : World μ} {s : Stage}
  {E : Tree → Tree → Prop} {i : Identity} {a b : Adapter} {parts : List Identity}
  {nodes : List Adapter}

/-! ### Contents -/

namespace Grid

variable {g : Grid} {k : NodeKey} {row column : Nat}

/-- Whether a part is there can be told. -/
instance decidableIncludes (g : Grid) : (i : Identity) → Decidable (g.Includes i)
  | .table _ => inferInstanceAs (Decidable True)
  | .row _ row => inferInstanceAs (Decidable (row < g.rows.length))
  | .column _ column => inferInstanceAs (Decidable (column < g.headers.length))
  | .cell _ row column =>
    inferInstanceAs (Decidable (row < g.rows.length ∧ column < g.headers.length))

/-- How many children a node has, if its part is there. -/
def count? (g : Grid) (i : Identity) : Option Nat :=
  if g.Includes i then some (g.parts i).length else none

theorem count?_row : g.count? (.row k row) =
    if row < g.rows.length then some g.headers.length else none := by
  simp only [count?, Includes, parts]
  split <;> simp [*]

theorem count?_column : g.count? (.column k column) =
    if column < g.headers.length then some g.rows.length else none := by
  simp only [count?, Includes, parts]
  split <;> simp [*]

theorem count?_cell : g.count? (.cell k row column) =
    if row < g.rows.length ∧ column < g.headers.length then some 0 else none := by
  simp only [count?, Includes, parts]
  split <;> simp [*]

/-- A part that is not there has no parts. -/
theorem parts_of_gone (gone : ¬g.Includes i) : g.parts i = [] := by
  cases i with
  | table k => exact absurd trivial gone
  | row k row | column k column => exact if_neg gone
  | cell k row column => rfl

theorem nodup_parts (g : Grid) (i : Identity) : (g.parts i).Nodup := by
  cases i with
  | column k column =>
    rw [parts]
    split
    · exact List.nodup_range.map fun row row' same => by cases same; rfl
    · exact List.nodup_nil
  | table k => exact g.nodup_branches (.table k)
  | row k row => exact g.nodup_branches (.row k row)
  | cell k row column => exact List.nodup_nil

end Grid

/-! ### Nodes of different parts -/

/-- An arena has no more values than slots. -/
theorem Arena.Sound.length_toList_le {arena : Arena α} (sound : arena.Sound) :
    arena.toList.length ≤ maxSlots :=
  calc arena.toList.length
      ≤ arena.slots.toList.zipIdx.length := List.length_filterMap_le _ _
    _ ≤ maxSlots := by simpa using sound.size

/-- It has no more keys either. -/
theorem Arena.Sound.length_le {arena : Arena α} (sound : arena.Sound) {keys : List NodeKey}
    (distinct : keys.Nodup) (there : ∀ k ∈ keys, (arena.get? k).isSome) : keys.length ≤ maxSlots := by
  have listed : keys ⊆ arena.toList.map Prod.fst := by
    intro k hk
    obtain ⟨v, hv⟩ := Option.isSome_iff_exists.1 (there k hk)
    exact List.mem_map.2 ⟨(k, v), sound.mem_toList.2 hv, rfl⟩
  calc keys.length
      ≤ (arena.toList.map Prod.fst).length := (List.subperm_of_subset distinct listed).length_le
    _ ≤ maxSlots := by
        rw [List.length_map]
        exact sound.length_toList_le

namespace Stage.Names

theorem unique {nodes' : List Adapter} (h : s.Names w parts nodes) (h' : s.Names w parts nodes') :
    nodes' = nodes := by
  induction h generalizing nodes' with
  | nil =>
    cases h'
    rfl
  | cons first _ ih =>
    cases h' with
    | cons first' rest' => rw [first.unique first', ih rest']

/-- Nodes of different parts have different keys. -/
theorem nodup_keys (h : s.Names w parts nodes) (distinct : parts.Nodup) (stands : s.Stands w) :
    (nodes.map Adapter.key).Nodup := by
  have apart : nodes.Nodup := .of_map Adapter.identity (h.identities stands ▸ distinct)
  refine apart.map_on fun a ha b hb same => ?_
  obtain ⟨tree, ht, -, stored, -⟩ := (h.finds stands ha).2.stored stands
  obtain ⟨tree', ht', -, stored', -⟩ := (h.finds stands hb).2.stored stands
  cases ht.symm.trans ht'
  rw [same] at stored
  exact Option.some.inj (stored.symm.trans stored')

/-- A list of nodes that are there finds room. -/
theorem room (h : s.Names w parts nodes) (distinct : parts.Nodup) (stands : s.Stands w)
    (item : Room.Item) : Room.Fits item parts.length := by
  obtain ⟨tree, ht, plants⟩ := stands.planted
  have slots : (nodes.map Adapter.key).length ≤ Arena.maxSlots := by
    refine plants.coherent.indexed.arena.length_le (h.nodup_keys distinct stands) fun k hk => ?_
    obtain ⟨a, ha, rfl⟩ := List.mem_map.1 hk
    obtain ⟨tree', ht', -, stored, -⟩ := (h.finds stands ha).2.stored stands
    cases ht.symm.trans ht'
    exact Option.isSome_iff_exists.2 ⟨a, stored⟩
  rw [List.length_map, ← h.length_eq, Arena.maxSlots] at slots
  exact Room.fits_of_lt (by omega)

end Stage.Names

/-! ### Trees with more nodes -/

/-- A tree has all its nodes still, and others for parts that had none. Each of the parts has one. -/
structure Tree.Adds (tree : Tree) (parts : List Identity) (tree' : Tree) : Prop where
  /-- No node is gone or has become another one. -/
  kept : ∀ {k : NodeKey} {a : Adapter}, tree.get? k = some a → tree'.get? k = some a
  /-- A node that was added stands for one of the parts, and that had none. -/
  added : ∀ {k : NodeKey} {a : Adapter}, tree'.get? k = some a →
    tree.get? k = some a ∨ a.identity ∈ parts ∧ tree.find? a.identity = none
  /-- The parts have their nodes. -/
  there : ∀ {i : Identity}, i ∈ parts → (tree'.find? i).isSome
  /-- Nothing else is found that was not found before. -/
  same : ∀ {i : Identity}, i ∉ parts → tree'.find? i = tree.find? i

namespace Tree

variable {t : TreeId} {peer : PeerId} {tree tree' : Tree}

/-- One node is found or made. -/
theorem Gets.adds (h : tree.Gets t peer i a tree') (coherent : tree.Coherent t) :
    tree.Adds [i] tree' := by
  have found := h.find? coherent
  refine ⟨fun {k b} hb => ?_, fun {k b} hb => ?_, fun {j} mem => ?_, fun {j} other => ?_⟩
  · cases h with
    | found => exact hb
    | made free next => exact coherent.indexed.get?_add_of_some next hb
  · cases h with
    | found => exact .inl hb
    | made free next =>
      rw [coherent.indexed.get?_add next] at hb
      split at hb
      · cases hb
        exact .inr ⟨List.mem_singleton_self _, free⟩
      · exact .inl hb
  · rw [List.mem_singleton.1 mem, found]
    rfl
  · cases h with
    | found => rfl
    | made free next =>
      rw [coherent.indexed.find?_add next free, if_neg (by simpa [eq_comm] using other)]

theorem Adds.trans {tree'' : Tree} {parts' : List Identity} (h : tree.Adds parts tree')
    (h' : tree'.Adds parts' tree'') (indexed : tree.Indexed) (indexed' : tree'.Indexed)
    (indexed'' : tree''.Indexed) : tree.Adds (parts ++ parts') tree'' := by
  have stays : ∀ {tree₁ tree₂ : Tree} {parts : List Identity} {j : Identity}, tree₁.Adds parts tree₂ →
      tree₁.Indexed → tree₂.Indexed → (tree₁.find? j).isSome → (tree₂.find? j).isSome := by
    intro tree₁ tree₂ parts j adds indexed₁ indexed₂ there
    obtain ⟨a, ha⟩ := Option.isSome_iff_exists.1 there
    obtain ⟨stored, identity⟩ := indexed₁.find?_eq_some_iff.1 ha
    exact Option.isSome_iff_exists.2 ⟨a, indexed₂.find?_eq_some_iff.2 ⟨adds.kept stored, identity⟩⟩
  refine ⟨fun ha => h'.kept (h.kept ha), fun {k b} hb => ?_, fun {j} mem => ?_, fun {j} other => ?_⟩
  · rcases h'.added hb with old | ⟨mem, free⟩
    · exact (h.added old).imp_right fun ⟨mem, free⟩ => ⟨List.mem_append_left _ mem, free⟩
    · refine .inr ⟨List.mem_append_right _ mem, ?_⟩
      rw [← Option.not_isSome_iff_eq_none] at free ⊢
      exact fun there => free (stays h indexed indexed' there)
  · rcases List.mem_append.1 mem with mem | mem
    · exact stays h' indexed' indexed'' (h.there mem)
    · exact h'.there mem
  · simp only [List.mem_append, not_or] at other
    rw [h'.same other.2, h.same other.1]

/-- When the others do nothing, the tree has the nodes of the parts that were missing, and no others. -/
theorem Grows.adds (h : tree.Grows Eq t peer parts tree') (coherent : tree.Coherent t) :
    tree.Adds parts tree' ∧ tree'.Coherent t := by
  induction h with
  | still same =>
    subst same
    exact ⟨⟨id, .inl, nofun, fun _ => rfl⟩, coherent⟩
  | next same gets _ ih =>
    subst same
    have coherent' := gets.coherent coherent
    obtain ⟨rest, coherent''⟩ := ih coherent'
    exact ⟨(gets.adds coherent).trans rest coherent.indexed coherent'.indexed coherent''.indexed,
      coherent''⟩

end Tree

namespace Stage.Since

/-- The nodes that were missing were added. -/
theorem adds (h : s.Since Eq parts w w') (stands : s.Stands w) :
    ∃ tree tree', w.trees[s.tree]? = some tree ∧ w'.trees[s.tree]? = some tree' ∧
      tree.Adds parts tree' := by
  obtain ⟨tree, tree', ht, ht', grows⟩ := h.grows
  obtain ⟨tree₁, ht₁, plants⟩ := stands.planted
  cases ht.symm.trans ht₁
  exact ⟨tree, tree', ht, ht', (grows.adds plants.coherent).1⟩

end Stage.Since

/-! ### Looking without making nodes -/

/-- An act comes to a value, of which something holds, and asks for no node. When the others leave the
tree alone it is as it was. -/
structure Stage.Sees (s : Stage) (act : Act μ α) (Q : α → Prop) (w : World μ) : Prop where
  /-- It comes to the value, whatever the others do meanwhile. -/
  answers : act.Brings s s.Keeps (s.Calm s.Keeps) [] (fun a _ => Q a) w
  /-- The tree is as it was. -/
  untouched : (act w).ComesTo (s.Calm Eq) fun result w' =>
    (∃ a, result = .ok a ∧ Q a) ∧ w'.trees[s.tree]? = w.trees[s.tree]?

theorem Stage.Sees.of_brings {act : Act μ α} {Q : α → Prop}
    (h : ∀ {E R}, s.Bears E R → act.Brings s E R [] (fun a _ => Q a) w) : s.Sees act Q w where
  answers := h (Keeps.bears s)
  untouched := (h (Calm.bears_eq s)).comes.mono fun outcome => by
    obtain ⟨a, rfl, -, since, holds⟩ := outcome.of_nil
    exact ⟨⟨a, rfl, holds⟩, since.still⟩

/-- What a node is asked that is about no other nodes: how many there are, where it stands, and what
its table says about it. -/
inductive Adapter.Accessor (a : Adapter) : {α : Type} → Act μ α → Prop where
  /-- The number of its children, -/
  | childCount : a.Accessor a.childCount
  /-- its label -/
  | label : a.Accessor a.label
  /-- and its position; -/
  | indexInParent : a.Accessor a.indexInParent
  /-- any attribute that is about no other nodes; -/
  | answer {attr : Attribute} (h : attr ≠ .parent) (h' : attr ≠ .children) (h'' : attr ≠ .valid) :
    a.Accessor (a.answer attr)
  /-- the name and the counts of a table, with the reason when there are none -/
  | tryShape : a.Accessor (Table.tryShape a)
  /-- or without, -/
  | shape : a.Accessor (Table.shape a)
  /-- the number of its rows -/
  | tableRowCount : a.Accessor (Table.rowCount a)
  /-- and of its columns, -/
  | tableColumnCount : a.Accessor (Table.columnCount a)
  /-- and all its headers; -/
  | columnHeaders : a.Accessor (Table.columnHeaders a)
  /-- the position of a row, with the reason when there is none -/
  | tryRowIndex (row : Nat) : a.Accessor (Row.tryIndex a row)
  /-- or without, -/
  | rowIndex (row : Nat) : a.Accessor (Row.index a row)
  /-- and the number of its cells; -/
  | rowColumnCount (row : Nat) : a.Accessor (Row.columnCount a row)
  /-- the position of a column, with the reason when there is none -/
  | tryColumnNumber (column : Nat) : a.Accessor (Column.tryNumber a column)
  /-- or without, -/
  | columnNumber (column : Nat) : a.Accessor (Column.number a column)
  /-- how many columns it spans, -/
  | columnSpan (column : Nat) : a.Accessor (Column.span a column)
  /-- its header, with the reason when there is none -/
  | tryHeader (column : Nat) : a.Accessor (Column.tryHeader a column)
  /-- or without, -/
  | header (column : Nat) : a.Accessor (Column.header a column)
  /-- and the number of its cells; -/
  | columnRowCount (column : Nat) : a.Accessor (Column.rowCount a column)
  /-- the row of a cell, -/
  | cellRow (row column : Nat) : a.Accessor (Cell.rowIndex a row column)
  /-- its column, -/
  | cellColumn (row column : Nat) : a.Accessor (Cell.columnIndex a row column)
  /-- its text, with the reason when there is none -/
  | tryText (row column : Nat) : a.Accessor (Cell.tryText a row column)
  /-- or without, -/
  | text (row column : Nat) : a.Accessor (Cell.text a row column)
  /-- and the header of its column. -/
  | cellHeader (row column : Nat) : a.Accessor (Cell.header a row column)

namespace Act.Brings

open Stage

/-- A list finds room. -/
theorem makeRoom_of_fits {item : Room.Item} {count : Nat} {rest : Unit → Act μ α}
    {Q : α → World μ → Prop} (fits : Room.Fits item count)
    (h : (rest ()).Brings s E R parts Q w) :
    (Act.makeRoom item count >>= rest).Brings s E R parts Q w := by
  unfold Act.makeRoom
  rw [if_pos fits, pure_bind]
  exact h

variable (bears : s.Bears E R)

include bears

theorem tryReadAny {read : Inquiry (Except Unavailable α)} (ready : s.Ready w)
    (found : s.Finds w i a) (honest : read.All (· ≠ .error .stalePeer)) :
    (a.tryRead read).Brings s E R [] (fun _ _ => True) w := by
  unfold Adapter.tryRead
  rw [found.peer ready.toStands]
  exact ask bears ready honest

theorem readAny {read : Inquiry (Except Unavailable α)} (question : String) (ready : s.Ready w)
    (found : s.Finds w i a) (honest : read.All (· ≠ .error .stalePeer)) :
    (a.read question read).Brings s E R [] (fun _ _ => True) w := by
  unfold Adapter.read
  refine (tryReadAny bears ready found honest).nil_bind bears fun ready' _ _ => ?_
  exact (degrade bears ready').mono fun _ _ _ => trivial

/-- The number of children is that of the parts. -/
theorem childCount (ready : s.Ready w) (found : s.Finds w i a) :
    a.childCount.Brings s E R [] (fun count _ => count = s.grid.count? i) w := by
  unfold Adapter.childCount
  rw [found.identity ready.toStands]
  cases i with
  | table k =>
    show (Adapter.Table.childCount a).Brings _ _ _ _ _ _
    rw [Adapter.Table.childCount, ← map_eq_pure_bind]
    refine (shape bears ready found).map bears ?_
    rintro shape w' - - rfl
    simp [Grid.count?, Grid.Includes, Grid.parts]
  | row k row =>
    refine read bears ready (found.peer ready.toStands) fun t same =>
      ⟨_, Reading.ofRow_reads row rfl, ?_⟩
    rw [Grid.count?_row, ← same]
    split <;> rfl
  | column k column =>
    refine read bears ready (found.peer ready.toStands) fun t same =>
      ⟨_, Reading.ofColumn_reads column rfl, ?_⟩
    rw [Grid.count?_column, ← same]
    split <;> rfl
  | cell k row column =>
    refine reading bears "child_count" (Reading.cell row column) _ (Option.map fun _ => 0) ?_ ?_ ready
      found (Stage.cell_reads ready.rectangular row column)
    · have whole := ready.rectangular.cell?_isSome row column
      rw [Grid.count?_cell]
      cases e : s.grid.cell? row column with
      | some text => rw [if_pos (whole.1 (by rw [e]; rfl))]; rfl
      | none => rw [if_neg fun there => by simpa [e] using whole.2 there]; rfl
    · simp only [Adapter.Cell.childCount, Adapter.Cell.snapshot, Adapter.Cell.trySnapshot,
        Adapter.read, map_eq_pure_bind, bind_assoc]

/-- An attribute that is about no other nodes is answered as the contents say. -/
theorem shows {attr : Attribute} (ready : s.Ready w) (found : s.Finds w i a) (h : attr ≠ .parent)
    (h' : attr ≠ .children) (h'' : attr ≠ .valid) :
    (a.answer attr).Brings s E R [] (fun value _ => value = s.grid.shows i attr) w := by
  have identity := found.identity ready.toStands
  cases a.plain (μ := μ) h h' h'' with
  | known answer shown =>
    rw [answer]
    exact pure bears ready (by rw [← shown s.grid, identity])
  | @reads α question read f answer shown =>
    have asked : (Peer.query s.peer read).Brings s E R []
        (fun result _ => f result.toOption = s.grid.shows i attr) w := by
      refine query bears (P := fun result => f result.toOption = s.grid.shows i attr) ready
        fun t same => ?_
      rw [← same, ← identity]
      exact shown t (same ▸ ready.rectangular)
    rw [answer, Adapter.read, Adapter.tryRead, found.peer ready.toStands, map_bind]
    refine asked.nil_bind bears fun ready' since shown => ?_
    refine (degrade bears ready').map bears fun _ _ value => ?_
    rw [value, shown]

/-- No question makes a node that is about no other nodes. -/
theorem accessor {act : Act μ α} (h : a.Accessor act) (ready : s.Ready w) (found : s.Finds w i a) :
    act.Brings s E R [] (fun _ _ => True) w := by
  have mapped : ∀ {β γ : Type} {act : Act μ β} (f : β → γ), act.Brings s E R [] (fun _ _ => True) w →
      (do return f (← act)).Brings s E R [] (fun _ _ => True) w := by
    intro β γ act f brings
    rw [← map_eq_pure_bind]
    exact brings.map bears fun _ _ _ => trivial
  have ofRow : ∀ {β : Type} (question : String) (row : Nat) (read : Inquiry β),
      (a.read question (Reading.ofRow row read)).Brings s E R [] (fun _ _ => True) w :=
    fun question row read => readAny bears question ready found (Reading.honest_ofRow row read)
  have ofColumn : ∀ {β : Type} (question : String) (column : Nat) (read : Inquiry β),
      (a.read question (Reading.ofColumn column read)).Brings s E R [] (fun _ _ => True) w :=
    fun question column read => readAny bears question ready found (Reading.honest_ofColumn column read)
  have ofTable : ∀ {β : Type} (question : String) (read : Inquiry β),
      (a.read question (Reading.ofInquiry read)).Brings s E R [] (fun _ _ => True) w :=
    fun question read => readAny bears question ready found (Reading.honest_ofInquiry read)
  have ofCell : ∀ (question : String) (row column : Nat),
      (Adapter.Cell.snapshot a question row column).Brings s E R [] (fun _ _ => True) w :=
    fun question row column => readAny bears question ready found (Reading.honest_cell row column)
  cases h with
  | childCount => exact (childCount bears ready found).mono fun _ _ _ => trivial
  | label => exact (label bears ready found).mono fun _ _ _ => trivial
  | indexInParent =>
    unfold Adapter.indexInParent
    split
    · exact pure bears ready trivial
    · exact ofRow _ _ _
    · exact ofColumn _ _ _
    · exact mapped _ (ofCell _ _ _)
  | answer h h' h'' =>
    exact (shows bears ready found h h' h'').mono fun _ _ _ => trivial
  | tryShape => exact tryReadAny bears ready found (Reading.honest_ofInquiry _)
  | shape => exact ofTable _ _
  | tableRowCount => exact ofTable _ _
  | tableColumnCount => exact ofTable _ _
  | columnHeaders => exact mapped _ (ofTable _ _)
  | tryRowIndex row => exact tryReadAny bears ready found (Reading.honest_ofRow row _)
  | rowIndex row => exact ofRow _ _ _
  | rowColumnCount row => exact ofRow _ _ _
  | tryColumnNumber column => exact tryReadAny bears ready found (Reading.honest_ofColumn column _)
  | columnNumber column => exact ofColumn _ _ _
  | columnSpan column => exact mapped _ (ofColumn _ _ _)
  | tryHeader column => exact tryReadAny bears ready found (Reading.honest_ofColumn column _)
  | header column =>
    have read := ofColumn "header_text" column (.question (.header column))
    unfold Adapter.read at read
    unfold Adapter.Column.header Adapter.Column.tryHeader
    rw [← bind_assoc]
    exact mapped _ read
  | columnRowCount column => exact ofColumn _ _ _
  | cellRow row column => exact mapped _ (ofCell _ _ _)
  | cellColumn row column => exact mapped _ (ofCell _ _ _)
  | tryText row column =>
    exact mapped _ (tryReadAny bears ready found (Reading.honest_cell row column))
  | text row column => exact mapped _ (ofCell _ _ _)
  | cellHeader row column => exact mapped _ (ofCell _ _ _)

/-! ### Lists of nodes that are there -/

/-- The nodes of parts that have nodes. -/
theorem nodesAgain (ready : s.Ready w) (named : s.Names w parts nodes) :
    (Act.each parts s.node).Brings s E R [] (fun again _ => again = nodes) w := by
  have found : (Act.each parts s.node).Brings s E R (parts.flatMap fun _ => [])
      (fun again w' => s.Names w' parts again) w := by
    refine each bears (fun j a w' => s.Finds w' j a) ready (fun since found => since.stays found) ?_
    intro j w' parts' mem ready' since
    obtain ⟨b, -, here⟩ := forall₂_mem_left named mem
    have here' := since.stays here
    refine (Brings.found bears ready' (here'.node_run ready'.toStands)).mono ?_
    rintro b' w'' - since' rfl
    exact since'.stays here'
  rw [List.flatMap_eq_nil_iff.2 fun _ _ => rfl] at found
  exact found.mono fun _ since again => (named.since since).unique again

/-- A list of parts that all have nodes makes none. -/
theorem talliedAgain {act : Act μ (List Adapter)} (h : s.Tallies a parts act) (ready : s.Ready w)
    (found : s.Finds w i a) (named : s.Names w parts nodes) (distinct : parts.Nodup) :
    act.Brings s E R [] (fun again _ => again = nodes) w := by
  cases h with
  | counted value reads fits makes length =>
    refine (Brings.read bears ready (found.peer ready.toStands) reads).nil_bind bears ?_
    rintro value' w' ready' since rfl
    refine hasTree bears ready'.toStands (since.stays found) ?_
    have named' := named.since since
    cases value' with
    | none =>
      obtain rfl := List.eq_nil_of_length_eq_zero length
      cases named
      exact pure bears ready' rfl
    | some count =>
      have room := named'.room distinct ready'.toStands
      rw [length] at room
      refine makeRoom_of_fits (room _) ?_
      rw [makes count rfl]
      exact nodesAgain bears ready' named'

/-- Children that are there are listed again. -/
theorem childrenAgain (ready : s.Ready w) (found : s.Finds w i a)
    (named : s.Names w (s.grid.parts i) nodes) :
    a.children.Brings s E R [] (fun again _ => again = nodes) w := by
  have own := found.own
  have distinct := s.grid.nodup_parts i
  unfold Adapter.children
  rw [found.identity ready.toStands]
  cases i with
  | table k =>
    obtain rfl : k = s.key := own
    show (Adapter.Table.children a).Brings _ _ _ _ _ _
    refine (shape bears ready found).nil_bind bears ?_
    rintro shape w' ready' since rfl
    refine hasTree bears ready'.toStands (since.stays found) ?_
    have named' := named.since since
    have room := named'.room distinct ready'.toStands .anyNode
    rw [Grid.parts, List.length_append, List.length_map, List.length_map, List.length_range,
      List.length_range] at room
    refine makeRoom_of_fits room ?_
    rw [(since.stays found).lists_parts ready'.toStands]
    exact nodesAgain bears ready' named'
  | row k row =>
    obtain rfl : k = s.key := own
    exact talliedAgain bears (found.tallies_row ready.toStands) ready found named distinct
  | column k column =>
    obtain rfl : k = s.key := own
    exact talliedAgain bears (found.tallies_column ready.toStands) ready found named distinct
  | cell k row column =>
    cases named
    exact pure bears ready rfl

end Act.Brings

/-! ### The guarantee -/

/-- What a node counts and what it lists agree, and nothing but the list makes nodes. -/
structure Stage.Counts (s : Stage) (a : Adapter) (w : World μ) : Prop where
  /-- The node tells a number exactly when its part is there. Whoever asks for the children then gets
  so many, with different keys, or none if no number was told; and whoever asks again gets the same
  answers, for which no node is made. -/
  agree : a.childCount.Brings s s.Keeps (s.Calm s.Keeps) [] (fun count w₁ =>
    (count.isSome ↔ s.grid.Includes a.identity) ∧ ∀ w₂, s.Later w₁ w₂ →
      a.children.Brings s s.Keeps (s.Calm s.Keeps) ((s.grid.parts a.identity).flatMap Grid.asked)
        (fun nodes w₃ => (∀ n, count = some n → nodes.length = n) ∧ (count = none → nodes = []) ∧
          (nodes.map Adapter.key).Nodup ∧ ∀ w₄, s.Later w₃ w₄ →
            s.Sees a.children (· = nodes) w₄ ∧ s.Sees a.childCount (· = count) w₄) w₂) w
  /-- Whoever asks for the children while nobody else does anything to the tree adds the nodes that
  were missing, those of cells after those of their rows, and no others. -/
  adds : a.children.Brings s Eq (s.Calm Eq) ((s.grid.parts a.identity).flatMap Grid.asked)
    (fun _ w' => ∃ tree tree', w.trees[s.tree]? = some tree ∧ w'.trees[s.tree]? = some tree' ∧
      tree.Adds ((s.grid.parts a.identity).flatMap Grid.asked) tree') w
  /-- Whoever asks for anything else that is about no other nodes leaves the tree as it is. -/
  looks : ∀ {α : Type} {act : Act μ α}, a.Accessor act → s.Sees act (fun _ => True) w

/-- **Counting agrees with listing.** For a table whose contents stay and whose context answers, a node
of the table tells as many children as it lists, if its part is there, and no number if it is not, when
it lists none. Only the list makes nodes, those that are missing; the second time there are none. -/
theorem counting_agrees_with_listing {m : Moment μ} (h : m.Lived) (set : s.Set m)
    (stored : s.Stores m.world a) : s.Counts a m.world := by
  have ready := set.ready h
  have found := stored.finds ready.toStands
  refine ⟨?_, ?_, fun asks => .of_brings fun bears => .accessor bears asks ready found⟩
  · refine (Act.Brings.childCount (Stage.Keeps.bears s) ready found).mono ?_
    rintro count w₁ - since₁ rfl
    refine ⟨by simp [Grid.count?], fun w₂ later₂ => ?_⟩
    have found₂ := later₂.stays (since₁.stays found)
    refine (Act.Brings.children (Stage.Keeps.bears s) later₂.1 found₂).mono ?_
    rintro nodes w₃ ready₃ since₃ ⟨named, -⟩
    refine ⟨fun n counted => ?_, fun none => ?_, ?_, fun w₄ later₄ => ?_⟩
    · rw [Grid.count?] at counted
      split at counted
      · cases counted
        exact named.length_eq.symm
      · cases counted
    · rw [Grid.count?] at none
      split at none
      · cases none
      · rw [Grid.parts_of_gone ‹_›] at named
        cases named
        rfl
    · exact named.nodup_keys (s.grid.nodup_parts _) ready₃.toStands
    · obtain ⟨ready₄, parts, since₄⟩ := later₄
      have found₄ := since₄.stays (since₃.stays found₂)
      exact ⟨.of_brings fun bears => .childrenAgain bears ready₄ found₄ (named.since since₄),
        .of_brings fun bears => .childCount bears ready₄ found₄⟩
  · refine (Act.Brings.children (Stage.Calm.bears_eq s) ready found).mono ?_
    rintro nodes w' - since -
    exact since.adds ready.toStands

/-- The first row of a table with two rows and two columns tells that it has two children, and lists
them under the next two keys. -/
theorem counting_agrees_with_listing_row : ∃ (m : Moment Unit) (s : Stage) (a : Adapter),
    m.Lived ∧ s.Set m ∧ s.Stores m.world a ∧ s.Counts a m.world ∧
      (a.childCount m.world).value? = some (some 2) ∧
      (a.children m.world).value?.map (List.map Adapter.key) =
        some [Arena.keyAt 2 1, Arena.keyAt 3 1] := by
  let grid : Grid := ⟨"", ["h", "k"], [["a", "b"], ["c", "d"]]⟩
  have rectangular : grid.Rectangular := by simp [grid, Grid.Rectangular]
  obtain ⟨m, lived, set, e⟩ := Stage.set_row rectangular
  have stored : (⟨0, Arena.keyAt 0 1, 0, 0, 0, grid⟩ : Stage).Stores m.world .firstRow :=
    ⟨rfl, _, by rw [e]; rfl, rfl⟩
  refine ⟨m, _, .firstRow, lived, set, stored,
    counting_agrees_with_listing lived set stored, ?_, ?_⟩
  · rw [e]
    decide +kernel
  · rw [e]
    decide +kernel

end TableAccess
