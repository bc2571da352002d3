import TableAccess.Proofs.Grids

/-!
# What edits mean

A sheet is a grid as one thinks of it: so many rows and columns, a header above each column and a text
in each cell, with nothing said of how they are stored. An edit of a sheet says for every place where
the header or the text comes from that stands there afterwards, and a column takes its header and its
cells along. Editable tables store the same thing in lists, one for the headers and one for each row,
and change every list on its own; yet whatever is done to a table, its contents and its answers are
those of the sheet to which the same edits are done.

## The model

* `opened`, `closed` — a sequence with one more place, or with one place less.
* `Sheet` — the reference; `Sheet.edit` — what an edit answers and makes of it.
* `Sheet.grid` — the lists that hold a sheet; `Edit.apply_grid` — an edit of the lists is one of the
  sheet.
* `GridTable.Written` — what a new table has become, with the edits that were done and their answers.
* `GridTable.Mirrors` — a table stands for a sheet.
* `edits_are_those_of_a_sheet` — the main statement.
-/

namespace TableAccess

variable {α : Type}

/-! ### Sequences -/

/-- A sequence with `x` at place `i`; what stood there or behind moves on by one. -/
def opened (i : Nat) (x : α) (f : Nat → α) (n : Nat) : α :=
  if n < i then f n else if n = i then x else f (n - 1)

/-- A sequence without place `i`; what stood behind moves back by one. -/
def closed (i : Nat) (f : Nat → α) (n : Nat) : α := if n < i then f n else f (n + 1)

theorem opened_self (i : Nat) (x : α) (f : Nat → α) : opened i x f i = x := by
  simp [opened]

/-- A place that is taken away after it was put in leaves the sequence as it was. -/
theorem closed_opened (i : Nat) (x : α) (f : Nat → α) : closed i (opened i x f) = f := by
  funext n
  unfold closed opened
  by_cases before : n < i
  · simp [before]
  · have later : ¬n + 1 < i := by omega
    have behind : n + 1 ≠ i := by omega
    simp [before, later, behind]

/-- The first `n` members of a sequence. -/
def firsts (n : Nat) (f : Nat → α) : List α := (List.range n).map f

section Firsts

variable {n i : Nat} {f g : Nat → α}

@[simp] theorem length_firsts (n : Nat) (f : Nat → α) : (firsts n f).length = n := by simp [firsts]

theorem getElem?_firsts (n : Nat) (f : Nat → α) (i : Nat) :
    (firsts n f)[i]? = if i < n then some (f i) else none := by
  unfold firsts
  by_cases lt : i < n <;> simp [lt]

/-- A list is the beginning of a sequence if it has the same members. -/
theorem eq_firsts {l : List α} (length : l.length = n) (same : ∀ i < n, l[i]? = some (f i)) :
    l = firsts n f := by
  refine List.ext_getElem? fun i => ?_
  rw [getElem?_firsts]
  by_cases lt : i < n
  · rw [if_pos lt, same i lt]
  · rw [if_neg lt, List.getElem?_eq_none (by omega)]

theorem firsts_congr (same : ∀ i < n, f i = g i) : firsts n f = firsts n g :=
  eq_firsts (length_firsts n f) fun i lt => by rw [getElem?_firsts, if_pos lt, same i lt]

theorem map_firsts {β : Type} (h : α → β) (n : Nat) (f : Nat → α) :
    (firsts n f).map h = firsts n fun i => h (f i) := by
  simp [firsts, Function.comp_def]

theorem insertIdx_firsts (le : i ≤ n) (x : α) (f : Nat → α) :
    (firsts n f).insertIdx i x = firsts (n + 1) (opened i x f) := by
  refine eq_firsts (by simp [List.length_insertIdx, le]) fun j lt => ?_
  rw [List.getElem?_insertIdx, length_firsts, getElem?_firsts, getElem?_firsts]
  unfold opened
  by_cases before : j < i
  · have inside : j < n := by omega
    simp [before, inside]
  · by_cases here : j = i
    · simp [here, le]
    · have inside : j - 1 < n := by omega
      simp [before, here, inside]

theorem eraseIdx_firsts (lt : i < n) (f : Nat → α) :
    (firsts n f).eraseIdx i = firsts (n - 1) (closed i f) := by
  refine eq_firsts (by simp [List.length_eraseIdx, lt]) fun j inside => ?_
  rw [List.getElem?_eraseIdx, getElem?_firsts, getElem?_firsts]
  unfold closed
  by_cases before : j < i
  · have there : j < n := by omega
    simp [before, there]
  · have there : j + 1 < n := by omega
    simp [before, there]

theorem set_firsts (n i : Nat) (x : α) (f : Nat → α) :
    (firsts n f).set i x = firsts n fun j => if j = i then x else f j := by
  refine eq_firsts (by simp) fun j lt => ?_
  rw [List.getElem?_set, getElem?_firsts, length_firsts, if_pos lt]
  by_cases here : i = j
  · simp [here, lt]
  · have apart : j ≠ i := Ne.symm here
    simp [here, apart]

theorem modify_firsts (n i : Nat) (h : α → α) (f : Nat → α) :
    (firsts n f).modify i h = firsts n fun j => if j = i then h (f j) else f j := by
  refine eq_firsts (by simp) fun j lt => ?_
  rw [List.getElem?_modify, getElem?_firsts, if_pos lt]
  by_cases here : i = j
  · simp [here]
  · have apart : j ≠ i := Ne.symm here
    simp [here, apart]

theorem append_firsts (n : Nat) (f : Nat → α) (x : α) :
    firsts n f ++ [x] = firsts (n + 1) fun j => if j = n then x else f j := by
  refine eq_firsts (by simp) fun j lt => ?_
  rw [List.getElem?_append, length_firsts, getElem?_firsts]
  by_cases inside : j < n
  · have apart : j ≠ n := by omega
    simp [inside, apart]
  · have last : j = n := by omega
    simp [last]

/-- A list of another length has the same texts as far as it goes, and then empty ones. -/
theorem resize_eq_firsts (n : Nat) (l : List String) :
    Grid.resize n l = firsts n fun j => l[j]?.getD "" := by
  refine eq_firsts (Grid.length_resize n l) fun j lt => ?_
  unfold Grid.resize
  rw [List.getElem?_append, List.length_take, List.getElem?_take, List.getElem?_replicate]
  by_cases inside : j < l.length
  · have taken : j < min n l.length := by omega
    simp [taken, lt, inside]
  · have beyond : ¬j < min n l.length := by omega
    have padded : j - min n l.length < n - l.length := by omega
    rw [if_neg beyond, if_pos padded, List.getElem?_eq_none (by omega)]
    rfl

end Firsts

/-! ### Sheets -/

/-- Rows and columns with a header for each column and a text for each cell. What the sequences say of
places that are not there means nothing. -/
structure Sheet where
  /-- Its name. -/
  name : String
  /-- How many rows there are. -/
  rows : Nat
  /-- How many columns there are. -/
  columns : Nat
  /-- The header of each column. -/
  header : Nat → String
  /-- The text of each cell, by row and column. -/
  cell : Nat → Nat → String

namespace Sheet

/-- A sheet without rows. -/
def ofHeaders (name : String) (headers : List String) : Sheet :=
  ⟨name, 0, headers.length, fun c => headers[c]?.getD "", fun _ _ => ""⟩

/-- The sheet with an empty column at a place. The columns that stood there or behind move on, each with
its header and its cells. -/
def insertColumn (s : Sheet) (i : Nat) (header : String) : Sheet :=
  { s with
    columns := s.columns + 1
    header := opened i header s.header
    cell := fun r => opened i "" (s.cell r) }

/-- The sheet without a column. The columns behind it move back, each with its header and its cells. -/
def removeColumn (s : Sheet) (i : Nat) : Sheet :=
  { s with
    columns := s.columns - 1
    header := closed i s.header
    cell := fun r => closed i (s.cell r) }

/-- The sheet with so many columns: those it had, as far as they go, and then empty ones. -/
def setColumnCount (s : Sheet) (n : Nat) : Sheet :=
  { s with
    columns := n
    header := fun c => if c < s.columns then s.header c else ""
    cell := fun r c => if c < s.columns then s.cell r c else "" }

/-- The sheet with another header. -/
def setHeader (s : Sheet) (column : Nat) (header : String) : Sheet :=
  { s with header := fun c => if c = column then header else s.header c }

/-- The sheet with one more row. Where no text is given a cell is empty. -/
def appendRow (s : Sheet) (cells : List String) : Sheet :=
  { s with
    rows := s.rows + 1
    cell := fun r => if r = s.rows then fun c => cells[c]?.getD "" else s.cell r }

/-- The sheet without a row. The rows behind it move back. -/
def removeRow (s : Sheet) (i : Nat) : Sheet :=
  { s with
    rows := s.rows - 1
    cell := closed i s.cell }

/-- The sheet with another text in a cell. -/
def setCell (s : Sheet) (row column : Nat) (text : String) : Sheet :=
  { s with cell := fun r c => if r = row ∧ c = column then text else s.cell r c }

/-- What an edit answers, and the sheet after it. An edit of a column, row or cell that is not there does
nothing, but for a new column, which then comes last. -/
def edit (s : Sheet) : Edit → EditReply × Sheet
  | .setName text => (.nothing, { s with name := text })
  | .insertColumn i header => (.nothing, s.insertColumn (min i s.columns) header)
  | .removeColumn i =>
    if i < s.columns then (.header (some (s.header i)), s.removeColumn i) else (.header none, s)
  | .setColumnCount n => (.nothing, s.setColumnCount n)
  | .setHeader column header =>
    (.nothing, if column < s.columns then s.setHeader column header else s)
  | .appendRow cells => (.nothing, s.appendRow cells)
  | .removeRow i => if i < s.rows then (.removed true, s.removeRow i) else (.removed false, s)
  | .setCell row column text =>
    (.nothing, if row < s.rows ∧ column < s.columns then s.setCell row column text else s)
  | .clearRows => (.nothing, { s with rows := 0 })

/-- The sheet after edits, the first of them in front. -/
def after (s : Sheet) (edits : List Edit) : Sheet := edits.foldl (fun s e => (s.edit e).2) s

/-- What the edits answer, one after the other. -/
def answers (s : Sheet) : List Edit → List EditReply
  | [] => []
  | e :: rest => (s.edit e).1 :: (s.edit e).2.answers rest

theorem after_append (s : Sheet) (earlier later : List Edit) :
    s.after (earlier ++ later) = (s.after earlier).after later := List.foldl_append

theorem answers_append (s : Sheet) (earlier later : List Edit) :
    s.answers (earlier ++ later) = s.answers earlier ++ (s.after earlier).answers later := by
  induction earlier generalizing s with
  | nil => rfl
  | cons e rest ih =>
    rw [List.cons_append, answers, ih]
    rfl

/-- The lists that hold a sheet: one for the headers, and one for each row. -/
def grid (s : Sheet) : Grid :=
  ⟨s.name, firsts s.columns s.header, firsts s.rows fun r => firsts s.columns (s.cell r)⟩

theorem grid_ofHeaders (name : String) (headers : List String) :
    (ofHeaders name headers).grid = .ofHeaders name headers := by
  have same : firsts headers.length (fun c => headers[c]?.getD "") = headers :=
    (eq_firsts rfl fun i lt => by simp [lt]).symm
  simp only [grid, ofHeaders, Grid.ofHeaders, same]
  rfl

@[simp] theorem length_headers_grid (s : Sheet) : s.grid.headers.length = s.columns :=
  length_firsts _ _

@[simp] theorem length_rows_grid (s : Sheet) : s.grid.rows.length = s.rows := length_firsts _ _

theorem grid_rectangular (s : Sheet) : s.grid.Rectangular := by
  intro row mem
  obtain ⟨r, -, rfl⟩ := List.mem_map.1 mem
  simp [grid]

theorem header?_grid (s : Sheet) (column : Nat) :
    s.grid.header? column =
      if column < s.columns then Grid.nonempty? (s.header column) else none := by
  simp only [Grid.header?, grid, getElem?_firsts]
  split <;> rfl

theorem cell?_grid (s : Sheet) (row column : Nat) :
    s.grid.cell? row column =
      if row < s.rows ∧ column < s.columns then some (s.cell row column) else none := by
  simp only [Grid.cell?, grid, getElem?_firsts]
  by_cases there : row < s.rows
  · simp [there, getElem?_firsts]
  · simp [there]

/-! ### Edits of the lists are edits of the sheet -/

theorem grid_insertColumn (s : Sheet) {i : Nat} (le : i ≤ s.columns) (header : String) :
    (s.insertColumn i header).grid =
      { s.grid with
        headers := s.grid.headers.insertIdx i header
        rows := s.grid.rows.map (·.insertIdx i "") } := by
  simp only [grid, insertColumn, insertIdx_firsts le, map_firsts]

theorem grid_removeColumn (s : Sheet) {i : Nat} (lt : i < s.columns) :
    (s.removeColumn i).grid =
      { s.grid with
        headers := s.grid.headers.eraseIdx i
        rows := s.grid.rows.map (·.eraseIdx i) } := by
  simp only [grid, removeColumn, eraseIdx_firsts lt, map_firsts]

/-- A list of another length shows the same sequence, and then empty texts. -/
theorem resize_firsts (n m : Nat) (f : Nat → String) :
    Grid.resize n (firsts m f) = firsts n fun c => if c < m then f c else "" := by
  rw [resize_eq_firsts]
  refine firsts_congr fun c _ => ?_
  rw [getElem?_firsts]
  split <;> rfl

theorem grid_setColumnCount (s : Sheet) (n : Nat) :
    (s.setColumnCount n).grid =
      { s.grid with
        headers := Grid.resize n s.grid.headers
        rows := s.grid.rows.map (Grid.resize n) } := by
  simp only [grid, setColumnCount, resize_firsts, map_firsts]

theorem grid_setHeader (s : Sheet) (column : Nat) (header : String) :
    (s.setHeader column header).grid =
      { s.grid with headers := s.grid.headers.set column header } := by
  simp only [grid, setHeader, set_firsts]

theorem grid_appendRow (s : Sheet) (cells : List String) :
    (s.appendRow cells).grid =
      { s.grid with rows := s.grid.rows ++ [Grid.resize s.columns cells] } := by
  simp only [grid, appendRow, append_firsts, resize_eq_firsts]
  congr 1
  refine firsts_congr fun r _ => ?_
  split <;> rfl

theorem grid_removeRow (s : Sheet) {i : Nat} (lt : i < s.rows) :
    (s.removeRow i).grid = { s.grid with rows := s.grid.rows.eraseIdx i } := by
  simp only [grid, removeRow, eraseIdx_firsts lt]
  congr 1
  refine firsts_congr fun r _ => ?_
  unfold closed
  split <;> rfl

theorem grid_setCell (s : Sheet) (row column : Nat) (text : String) :
    (s.setCell row column text).grid =
      { s.grid with rows := s.grid.rows.modify row (·.set column text) } := by
  simp only [grid, setCell, modify_firsts, set_firsts]
  congr 1
  refine firsts_congr fun r _ => ?_
  by_cases here : r = row <;> simp [here]

/-- A text for a cell that is not there changes nothing. -/
theorem modify_rows_grid (s : Sheet) {row column : Nat} (absent : ¬(row < s.rows ∧ column < s.columns))
    {text : String} : s.grid.rows.modify row (·.set column text) = s.grid.rows := by
  simp only [grid, modify_firsts, set_firsts]
  refine firsts_congr fun r lt => ?_
  split
  · rename_i here
    subst here
    refine firsts_congr fun c inside => if_neg ?_
    rintro rfl
    exact absent ⟨lt, inside⟩
  · rfl

end Sheet

section Edits

variable {s : Sheet} {g : Grid} {e : Edit}

/-- Whatever is done to the lists that hold a sheet is done to the sheet, and answered alike. -/
theorem Edit.apply_grid (fits : e.Fits s.grid) :
    e.apply s.grid = .ok ((s.edit e).1, (s.edit e).2.grid) := by
  cases e with
  | setName | clearRows => rfl
  | insertColumn index header =>
    rw [insertColumn_apply s.grid_rectangular, s.length_headers_grid]
    simp only [Sheet.edit, s.grid_insertColumn (Nat.min_le_right index s.columns)]
  | removeColumn index =>
    by_cases there : index < s.columns
    · have lt : index < s.grid.headers.length := s.length_headers_grid.symm ▸ there
      have title : s.grid.headers[index] = s.header index := by simp [Sheet.grid, firsts]
      rw [removeColumn_apply s.grid_rectangular lt, title]
      simp only [Sheet.edit, if_pos there, s.grid_removeColumn there]
    · have le : s.grid.headers.length ≤ index := by simpa using there
      rw [removeColumn_apply_of_le le]
      simp only [Sheet.edit, if_neg there]
  | setColumnCount count =>
    have room : ¬(s.grid.headers.length < count ∧ ¬Room.Fits .text count) := by
      rintro ⟨more, long⟩
      exact (fits count rfl).elim (fun le => absurd more (Nat.not_lt.2 le)) long
    simp only [apply, if_neg room, Sheet.edit, s.grid_setColumnCount]
  | setHeader column header =>
    by_cases there : column < s.columns
    · simp only [apply, Sheet.edit, if_pos there, s.grid_setHeader]
    · have beyond : s.grid.headers.length ≤ column := by simpa using there
      simp only [apply, Sheet.edit, if_neg there, List.set_eq_of_length_le beyond]
  | appendRow cells => simp only [apply, Sheet.edit, s.grid_appendRow, s.length_headers_grid]
  | removeRow index =>
    by_cases there : index < s.rows
    · have lt : index < s.grid.rows.length := s.length_rows_grid.symm ▸ there
      simp only [apply, if_pos lt, Grid.removeAt_of_lt lt, Sheet.edit, if_pos there,
        s.grid_removeRow there]
      rfl
    · have beyond : ¬index < s.grid.rows.length := s.length_rows_grid.symm ▸ there
      simp only [apply, if_neg beyond, Sheet.edit, if_neg there]
  | setCell row column text =>
    by_cases there : row < s.rows ∧ column < s.columns
    · simp only [apply, Sheet.edit, if_pos there, s.grid_setCell]
    · simp only [apply, Sheet.edit, if_neg there, s.modify_rows_grid there]

/-- For too many columns there is no room. -/
theorem Edit.apply_of_not_fits (long : ¬e.Fits g) : e.apply g = .error Room.overflow := by
  unfold Fits at long
  push Not at long
  obtain ⟨count, rfl, more, far⟩ := long
  exact if_pos ⟨by omega, far⟩

/-- An edit is done only if there is room. -/
theorem Edit.fits_of_apply {reply : EditReply} {g' : Grid} (done : e.apply g = .ok (reply, g')) :
    e.Fits g := by
  by_contra long
  rw [apply_of_not_fits long] at done
  cases done

end Edits

/-! ### Tables -/

/-- What a table that was made with a name and headers has become, with the edits that were done and
what they answered, in order. They were done on any thread; what panics changes nothing. -/
inductive GridTable.Written (name : String) (headers : List String) :
    List (Edit × EditReply) → GridTable → Prop where
  /-- It is new. -/
  | new : Written name headers [] (.ofGrid (.ofHeaders name headers))
  /-- It is bound to a context. -/
  | bind {history : List (Edit × EditReply)} {t : GridTable} (before : Written name headers history t)
      (c : ContextId) : Written name headers history (t.bindTo c)
  /-- It is disposed of. -/
  | dispose {history : List (Edit × EditReply)} {t t' : GridTable} {checksOn : Bool} {now : Thread}
      (before : Written name headers history t) (done : t.dispose checksOn now = .ok t') :
    Written name headers history t'
  /-- It is edited. -/
  | edit {history : List (Edit × EditReply)} {t t' : GridTable} {checksOn : Bool} {now : Thread}
      {e : Edit} {reply : EditReply} (before : Written name headers history t)
      (done : t.edit checksOn now e = .ok (reply, t')) :
    Written name headers (history ++ [(e, reply)]) t'

/-- Questions are answered from a sheet. An empty name or header counts as none. -/
structure Sheet.Told (s : Sheet) (ask : (q : Question) → Except Panic q.Answer) : Prop where
  name : ask .name = .ok (Grid.nonempty? s.name)
  rows : ask .rowCount = .ok s.rows
  columns : ask .columnCount = .ok s.columns
  header : ∀ column, ask (.header column) =
    .ok (if column < s.columns then Grid.nonempty? (s.header column) else none)
  cell : ∀ row column, ask (.cellText row column) =
    .ok (if row < s.rows ∧ column < s.columns then some (s.cell row column) else none)
  isColumn : ∀ column, ask (.isColumn column) = .ok (decide (column < s.columns))
  isRow : ∀ row, ask (.isRow row) = .ok (decide (row < s.rows))

/-- A table stands for a sheet. -/
structure GridTable.Mirrors (t : GridTable) (s : Sheet) : Prop where
  /-- Its contents are the lists that hold the sheet. -/
  contents : t.grid = s.grid
  /-- Whoever may touch the table gets the answers of the sheet, -/
  asked : ∀ {checksOn : Bool} {now : Thread}, t.Allows checksOn now → s.Told (t.ask checksOn now)
  /-- and does to the sheet whatever he does to the table; -/
  edited : ∀ {checksOn : Bool} {now : Thread} {e : Edit}, t.Allows checksOn now → e.Fits s.grid →
    t.edit checksOn now e = .ok ((s.edit e).1, { t with grid := (s.edit e).2.grid })
  /-- nobody else does anything to either, and nothing is done for which there is no room. -/
  refused : ∀ {checksOn : Bool} {now : Thread} {e : Edit}, ¬(t.Allows checksOn now ∧ e.Fits s.grid) →
    ∃ p, t.edit checksOn now e = .error p
  /-- A column that was just put in can be taken away again, with nothing left of it, -/
  inserted : ∀ {checksOn : Bool} {now : Thread}, t.Allows checksOn now → ∀ index header, ∃ t',
    t.edit checksOn now (.insertColumn index header) = .ok (.nothing, t') ∧
      t'.edit checksOn now (.removeColumn (min index s.columns)) = .ok (.header (some header), t)
  /-- and so can columns that were just added. -/
  widened : ∀ {checksOn : Bool} {now : Thread}, t.Allows checksOn now → ∀ count, s.columns ≤ count →
    (Edit.setColumnCount count).Fits s.grid → ∃ t',
      t.edit checksOn now (.setColumnCount count) = .ok (.nothing, t') ∧
        t'.edit checksOn now (.setColumnCount s.columns) = .ok (.nothing, t)

namespace Sheet

variable {s : Sheet}

/-- A column that was just put in is taken away. -/
theorem edit_insertColumn_removeColumn (s : Sheet) (index : Nat) (header : String) :
    (s.edit (.insertColumn index header)).2.edit (.removeColumn (min index s.columns)) =
      (.header (some header), s) := by
  have there : min index s.columns < s.columns + 1 := by omega
  simp only [edit, insertColumn, if_pos there, opened_self, removeColumn, closed_opened,
    Nat.add_sub_cancel]

/-- Columns that were just added are taken away. -/
theorem grid_setColumnCount_setColumnCount (s : Sheet) {count : Nat} (more : s.columns ≤ count) :
    ((s.setColumnCount count).setColumnCount s.columns).grid = s.grid := by
  have same : ∀ f : Nat → String,
      Grid.resize s.columns (Grid.resize count (firsts s.columns f)) = firsts s.columns f := fun f => by
    rw [resize_firsts, resize_firsts]
    refine firsts_congr fun c there => ?_
    rw [if_pos (Nat.lt_of_lt_of_le there more), if_pos there]
  rw [grid_setColumnCount, grid_setColumnCount, List.map_map]
  simp only [grid, map_firsts, Function.comp_apply, same]

end Sheet

namespace GridTable

variable {t t' : GridTable} {s : Sheet} {checksOn : Bool} {now : Thread} {e : Edit}

theorem edit_of_allows (may : t.Allows checksOn now) (e : Edit) :
    t.edit checksOn now e = (e.apply t.grid).map fun r => (r.1, { t with grid := r.2 }) := by
  unfold edit
  rw [may.opens]
  cases e.apply t.grid <;> rfl

section Contents

variable (contents : t.grid = s.grid)

include contents

theorem told_of_contents (may : t.Allows checksOn now) : s.Told (t.ask checksOn now) := by
  constructor <;> intros <;> rw [may.ask] <;>
    simp only [answer, contents, s.header?_grid, s.cell?_grid, s.length_headers_grid,
      s.length_rows_grid]
  rfl

theorem edit_of_contents (may : t.Allows checksOn now) (fits : e.Fits s.grid) :
    t.edit checksOn now e = .ok ((s.edit e).1, { t with grid := (s.edit e).2.grid }) := by
  rw [edit_of_allows may, contents, Edit.apply_grid fits]
  rfl

theorem edit_of_unfit (unfit : ¬(t.Allows checksOn now ∧ e.Fits s.grid)) :
    ∃ p, t.edit checksOn now e = .error p := by
  by_cases may : t.Allows checksOn now
  · have long : ¬e.Fits s.grid := fun fits => unfit ⟨may, fits⟩
    rw [edit_of_allows may, contents, Edit.apply_of_not_fits long]
    exact ⟨_, rfl⟩
  · exact ⟨_, edit_of_not_allows may e⟩

theorem insertColumn_removeColumn (may : t.Allows checksOn now) (index : Nat) (header : String) :
    ∃ t', t.edit checksOn now (.insertColumn index header) = .ok (.nothing, t') ∧
      t'.edit checksOn now (.removeColumn (min index s.columns)) =
        .ok (.header (some header), t) := by
  have fits : (Edit.insertColumn index header).Fits s.grid := nofun
  refine ⟨_, edit_of_contents contents may fits, ?_⟩
  have removes := edit_of_contents (e := .removeColumn (min index s.columns))
    (t := { t with grid := (s.edit (.insertColumn index header)).2.grid })
    rfl may nofun
  rw [removes, s.edit_insertColumn_removeColumn, ← contents]

theorem setColumnCount_setColumnCount (may : t.Allows checksOn now) {count : Nat}
    (more : s.columns ≤ count) (fits : (Edit.setColumnCount count).Fits s.grid) :
    ∃ t', t.edit checksOn now (.setColumnCount count) = .ok (.nothing, t') ∧
      t'.edit checksOn now (.setColumnCount s.columns) = .ok (.nothing, t) := by
  refine ⟨_, edit_of_contents contents may fits, ?_⟩
  have narrower : (Edit.setColumnCount s.columns).Fits (s.setColumnCount count).grid := by
    intro n same
    cases same
    exact .inl ((s.setColumnCount count).length_headers_grid.symm ▸ more)
  have restores := edit_of_contents (t := { t with grid := (s.setColumnCount count).grid }) rfl may
    narrower
  refine restores.trans ?_
  simp only [Sheet.edit, s.grid_setColumnCount_setColumnCount more, ← contents]

/-- A table with the contents of a sheet stands for it. -/
theorem mirrors_of_contents : t.Mirrors s where
  contents := contents
  asked := told_of_contents contents
  edited := edit_of_contents contents
  refused := edit_of_unfit contents
  inserted := insertColumn_removeColumn contents
  widened may _ := setColumnCount_setColumnCount contents may

end Contents

variable {name : String} {headers : List String} {history : List (Edit × EditReply)}

/-- After every edit a table has the contents of the sheet, and every edit was answered alike. -/
theorem Written.follows (h : Written name headers history t) :
    history.map Prod.snd = (Sheet.ofHeaders name headers).answers (history.map Prod.fst) ∧
      t.grid = ((Sheet.ofHeaders name headers).after (history.map Prod.fst)).grid := by
  induction h with
  | new => exact ⟨rfl, (Sheet.grid_ofHeaders name headers).symm⟩
  | bind _ _ ih => exact ih
  | dispose _ done ih =>
    obtain ⟨-, rfl⟩ := dispose_eq_ok done
    exact ih
  | @edit history t t' checksOn now e reply _ done ih =>
    obtain ⟨answers, contents⟩ := ih
    obtain ⟨-, grid, applied, rfl⟩ := edit_eq_ok done
    generalize same : (Sheet.ofHeaders name headers).after (history.map Prod.fst) = s at contents
    rw [contents] at applied
    rw [Edit.apply_grid (Edit.fits_of_apply applied)] at applied
    cases applied
    rw [List.map_append, List.map_append, Sheet.answers_append, Sheet.after_append, same, answers]
    exact ⟨rfl, rfl⟩

end GridTable

/-- **Edits mean what they mean on a sheet of paper.** Take a new table and a sheet with the same name and
headers, and do the same edits to both, whatever else happens to the table in between. Every edit is
answered by the table as by the sheet; the table's contents, and whatever it answers on a thread that may
touch it, are those of the sheet, and so is what becomes of it with the next edit. An edit that is refused
changes nothing. A column that was just put in can be taken away with nothing left of it, and so can
columns that were just added. -/
theorem edits_are_those_of_a_sheet {t : GridTable} {name : String} {headers : List String}
    {history : List (Edit × EditReply)} (h : GridTable.Written name headers history t) :
    history.map Prod.snd = (Sheet.ofHeaders name headers).answers (history.map Prod.fst) ∧
      t.Mirrors ((Sheet.ofHeaders name headers).after (history.map Prod.fst)) :=
  ⟨h.follows.1, GridTable.mirrors_of_contents h.follows.2⟩

/-- On the thread of its context a table gets a row too long, a column in front, and loses the second
one; the text that was under its header still is. -/
theorem edits_are_those_of_a_sheet_shifted : ∃ t : GridTable,
    GridTable.Written "t" ["A", "B"] [(.appendRow ["x", "y", "z"], .nothing),
      (.insertColumn 0 "C", .nothing), (.removeColumn 1, .header (some "A"))] t ∧
    t.owner = some 0 ∧ t.grid.headers = ["C", "B"] ∧ t.grid.rows = [["", "y"]] ∧
    t.Mirrors ((Sheet.ofHeaders "t" ["A", "B"]).after
      [.appendRow ["x", "y", "z"], .insertColumn 0 "C", .removeColumn 1]) := by
  have bound : GridTable.Written "t" ["A", "B"] [] ⟨.ofHeaders "t" ["A", "B"], some 0, false⟩ :=
    .bind .new 0
  have appends : GridTable.edit ⟨.ofHeaders "t" ["A", "B"], some 0, false⟩ true (.toolkit 0)
      (.appendRow ["x", "y", "z"]) =
    .ok (.nothing, ⟨⟨"t", ["A", "B"], [["x", "y"]]⟩, some 0, false⟩) := rfl
  have inserts : GridTable.edit ⟨⟨"t", ["A", "B"], [["x", "y"]]⟩, some 0, false⟩ true (.toolkit 0)
      (.insertColumn 0 "C") =
    .ok (.nothing, ⟨⟨"t", ["C", "A", "B"], [["", "x", "y"]]⟩, some 0, false⟩) := rfl
  have removes : GridTable.edit ⟨⟨"t", ["C", "A", "B"], [["", "x", "y"]]⟩, some 0, false⟩ true
      (.toolkit 0) (.removeColumn 1) =
    .ok (.header (some "A"), ⟨⟨"t", ["C", "B"], [["", "y"]]⟩, some 0, false⟩) := rfl
  have written := ((bound.edit appends).edit inserts).edit removes
  exact ⟨_, written, rfl, rfl, rfl, (edits_are_those_of_a_sheet written).2⟩

end TableAccess
