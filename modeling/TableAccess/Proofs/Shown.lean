import TableAccess.Adapter.Node
import TableAccess.Proofs.TreeRuns
import TableAccess.Proofs.Tables

/-!
# What nodes show of a table

The contents of a table decide what each of its nodes shows and what its children stand for. A node
keeps nothing of it: an attribute is answered from what the node is, or with one reading of the
table, and asked of an editable table that reading comes to what the contents say.

## The model

* `Grid.shows`, `Grid.parts` — what a node shows of some contents, and what its children stand for.
* `consult_grid` — an inquiry of an editable table changes nothing.
* `GridTable.run_eq` — a reading of an editable table comes to what the contents say, all at once.
* `Adapter.Plain` — how a node answers an attribute that is about no other nodes; `Adapter.plain` —
  that it answers all of them so.
-/

namespace TableAccess

/-! ### Contents -/

namespace Grid

/-- What the node of a table shows. -/
def showsTable (g : Grid) : Attribute → AttributeValue
  | .label => .ofText (nonempty? g.name)
  | .rowCount => .count g.rows.length
  | .columnCount => .count g.headers.length
  | .childCount => .count (g.rows.length + g.headers.length)
  | _ => .none

/-- What the node of a row shows that is there. -/
def showsRow (g : Grid) (row : Nat) : Attribute → AttributeValue
  | .index | .rowIndex => .index row
  | .columnCount | .childCount => .count g.headers.length
  | _ => .none

/-- What the node of a column shows that is there. -/
def showsColumn (g : Grid) (column : Nat) : Attribute → AttributeValue
  | .index | .columnIndex => .index column
  | .label | .header => .ofText (g.header? column)
  | .columnSpan => .count 1
  | .rowCount | .childCount => .count g.rows.length
  | _ => .none

/-- What the node of a cell shows that is there and has some text. -/
def showsCell (g : Grid) (row column : Nat) (text : String) : Attribute → AttributeValue
  | .rowIndex => .index row
  | .index | .columnIndex => .index column
  | .label | .value => .text text
  | .header => .ofText (g.header? column)
  | .columnSpan => .count 1
  | .childCount => .count 0
  | _ => .none

/-- What a node shows, other nodes apart. A part that is not there shows nothing but its role. -/
def shows (g : Grid) (i : Identity) (attr : Attribute) : AttributeValue :=
  match attr, i with
  | .role, i => .role i.role
  | .valid, _ => .bool true
  | attr, .table _ => g.showsTable attr
  | attr, .row _ row => if row < g.rows.length then g.showsRow row attr else .none
  | attr, .column _ column => if column < g.headers.length then g.showsColumn column attr else .none
  | attr, .cell _ row column =>
    match g.cell? row column with
    | some text => g.showsCell row column text attr
    | none => .none

/-- What the children of a node stand for: the rows of a table, then its columns; the cells of a row
or of a column that is there. -/
def parts (g : Grid) : Identity → List Identity
  | .table k => (List.range g.rows.length).map (.row k) ++
      (List.range g.headers.length).map (.column k)
  | .row k row =>
    if row < g.rows.length then (List.range g.headers.length).map (.cell k row) else []
  | .column k column =>
    if column < g.headers.length then
      (List.range g.rows.length).map fun row => .cell k row column
    else []
  | .cell _ _ _ => []

/-- A cell is there when its row and its column are. -/
theorem Rectangular.cell?_isSome {g : Grid} (h : g.Rectangular) (row column : Nat) :
    (g.cell? row column).isSome ↔ row < g.rows.length ∧ column < g.headers.length := by
  unfold cell?
  by_cases there : row < g.rows.length
  · have same := h g.rows[row] (List.getElem_mem there)
    rw [List.getElem?_eq_getElem there, Option.bind_some]
    simp [there, same]
  · rw [List.getElem?_eq_none (Nat.le_of_not_lt there)]
    simp [there]

end Grid

/-! ### Readings -/

variable {μ α β : Type} {a : Adapter}

/-- Whatever an editable table is asked, it stays as it is. -/
theorem Inquiry.run_grid (i : Inquiry α) (checksOn : Bool) (now : Thread) (g : GridTable) :
    (i.run checksOn now (.grid g)).2 = .grid g := by
  induction i with
  | done a => rfl
  | fail p => rfl
  | ask q next ih =>
    rw [Inquiry.run, Table.ask]
    cases g.ask checksOn now q with
    | ok answer => exact ih answer
    | error p => rfl

/-- An inquiry of an editable table changes nothing. -/
theorem consult_grid {w : World μ} {t : TableId} {g : GridTable} (ht : w.table? t = some (.grid g))
    (inquiry : Inquiry α) :
    consult t inquiry w =
      .done ((inquiry.run w.checksOn w.thread (.grid g)).1.map some) w := by
  have same := inquiry.run_grid w.checksOn w.thread g
  have still := w.setTable_self ht
  unfold consult
  simp only [Act.bind_apply, Act.get_apply, Progress.bind, ht]
  generalize inquiry.run w.checksOn w.thread (.grid g) = outcome at same
  obtain ⟨result, after⟩ := outcome
  cases same
  cases result with
  | ok a => exact congrArg (Progress.done _) still
  | error p => exact congrArg (Progress.done _) still

/-- A reading of an editable table, on a thread that may touch it, comes to what the contents say,
and leaves the table as it is. -/
theorem GridTable.run_eq {t : GridTable} {checksOn : Bool} {now : Thread}
    (opens : t.checkThread checksOn now = .ok ()) (i : Inquiry α) :
    i.run checksOn now (.grid t) = (i.eval t.answer, .grid t) := by
  induction i with
  | done a => rfl
  | fail p => rfl
  | ask q next ih =>
    have answered : t.ask checksOn now q = .ok (t.answer q) := by
      cases q <;> simp [ask, opens, Except.map]
    simp only [Inquiry.run, Table.ask, answered, ih, Inquiry.eval]

/-- A reading of a table that is there comes to a value, without a word about its being gone. -/
structure Inquiry.Reads (read : Inquiry (Except Unavailable α)) (t : GridTable)
    (result : Except Unavailable α) : Prop where
  /-- It comes to the value. -/
  value : read.eval t.answer = .ok result
  /-- The table is there. -/
  there : result ≠ .error .stalePeer

namespace Reading

variable {t : GridTable}

theorem shape_reads : shape.Reads t
    (.ok ⟨Grid.nonempty? t.grid.name, t.grid.rows.length, t.grid.headers.length⟩) :=
  ⟨rfl, by simp⟩

theorem columnCount_reads : columnCount.Reads t (.ok t.grid.headers.length) := ⟨rfl, by simp⟩

theorem rowCount_reads : rowCount.Reads t (.ok t.grid.rows.length) := ⟨rfl, by simp⟩

theorem nothing_reads : nothing.Reads t (.ok ()) := ⟨rfl, by simp⟩

/-- A reading about a row comes to nothing when the row is not there. -/
theorem ofRow_reads {read : Inquiry α} {value : α} (row : Nat) (h : read.eval t.answer = .ok value) :
    (ofRow row read).Reads t (if row < t.grid.rows.length then .ok value
      else .error (.indexOutOfRange .row row t.grid.rows.length)) := by
  split
  · rename_i there
    refine ⟨?_, by simp⟩
    show Inquiry.eval t.answer (if decide (row < _) = true then _ else _) = _
    rw [if_pos (decide_eq_true there), Inquiry.eval_bind, h]
    rfl
  · rename_i gone
    refine ⟨?_, by simp⟩
    show Inquiry.eval t.answer (if decide (row < _) = true then _ else _) = _
    rw [if_neg (by simpa using gone)]
    rfl

/-- A reading about a column comes to nothing when the column is not there. -/
theorem ofColumn_reads {read : Inquiry α} {value : α} (column : Nat)
    (h : read.eval t.answer = .ok value) :
    (ofColumn column read).Reads t (if column < t.grid.headers.length then .ok value
      else .error (.indexOutOfRange .column column t.grid.headers.length)) := by
  split
  · rename_i there
    refine ⟨?_, by simp⟩
    show Inquiry.eval t.answer (if decide (column < _) = true then _ else _) = _
    rw [if_pos (decide_eq_true there), Inquiry.eval_bind, h]
    rfl
  · rename_i gone
    refine ⟨?_, by simp⟩
    show Inquiry.eval t.answer (if decide (column < _) = true then _ else _) = _
    rw [if_neg (by simpa using gone)]
    rfl

/-- The row of a cell is looked for before its column. -/
theorem cell_reads_of_lt {row : Nat} (there : row < t.grid.rows.length) (column : Nat) :
    (cell row column).Reads t (if column < t.grid.headers.length then
      .ok ⟨t.grid.cell? row column, t.grid.header? column⟩
      else .error (.indexOutOfRange .column column t.grid.headers.length)) := by
  have evals : Inquiry.eval t.answer (do
      let text ← Inquiry.question (.cellText row column)
      let header ← Inquiry.question (.header column)
      pure (CellText.mk text header)) =
      .ok ⟨t.grid.cell? row column, t.grid.header? column⟩ := rfl
  obtain ⟨value, live⟩ := ofColumn_reads column evals
  refine ⟨?_, live⟩
  show Inquiry.eval t.answer (if decide (row < _) = true then _ else _) = _
  rw [if_pos (decide_eq_true there)]
  exact value

theorem cell_reads_of_gone {row : Nat} (gone : ¬row < t.grid.rows.length) (column : Nat) :
    (cell row column).Reads t (.error (.indexOutOfRange .row row t.grid.rows.length)) := by
  refine ⟨?_, by simp⟩
  show Inquiry.eval t.answer (if decide (row < _) = true then _ else _) = _
  rw [if_neg (by simpa using gone)]
  rfl

/-- The reading of a cell comes to nothing when its row or its column is not there. -/
theorem cell_reads (rectangular : t.grid.Rectangular) (row column : Nat) :
    ∃ result, (cell row column).Reads t result ∧
      result.toOption = (t.grid.cell? row column).map fun text =>
        ⟨some text, t.grid.header? column⟩ := by
  have whole := rectangular.cell?_isSome row column
  by_cases there : row < t.grid.rows.length
  · refine ⟨_, cell_reads_of_lt there column, ?_⟩
    by_cases within : column < t.grid.headers.length
    · obtain ⟨text, e⟩ := Option.isSome_iff_exists.1 (whole.2 ⟨there, within⟩)
      simp [within, e, Except.toOption]
    · have none : t.grid.cell? row column = none := by simpa [within] using whole
      simp [within, none, Except.toOption]
  · have none : t.grid.cell? row column = none := by simpa [there] using whole
    refine ⟨_, cell_reads_of_gone there column, ?_⟩
    simp [none, Except.toOption]

end Reading

/-! ### Attributes -/

namespace Adapter

/-- How a node answers an attribute that is about no other nodes: it knows the answer, or takes it
from one reading of its table. -/
inductive Plain (μ : Type) (a : Adapter) (attr : Attribute) : Prop where
  /-- It knows the answer, whatever the contents are. -/
  | known {value : AttributeValue} (answer : (a.answer attr : Act μ _) = pure value)
      (shown : ∀ g : Grid, g.shows a.identity attr = value)
  /-- It reads the table once, and the answer is what the contents say. -/
  | reads {α : Type} {question : String} {read : Inquiry (Except Unavailable α)}
      {f : Option α → AttributeValue}
      (answer : (a.answer attr : Act μ _) = f <$> a.read question read)
      (shown : ∀ t : GridTable, t.grid.Rectangular → ∃ result, read.Reads t result ∧
        f result.toOption = t.grid.shows a.identity attr)

variable {attr : Attribute} {k : NodeKey} {row column : Nat}

namespace Plain

theorem of_row {value : GridTable → α} (isRow : a.identity = .row k row) (question : String)
    (read : Inquiry α) (f : Option α → AttributeValue)
    (answer : (a.answer attr : Act μ _) = f <$> a.read question (Reading.ofRow row read))
    (evals : ∀ t : GridTable, read.eval t.answer = .ok (value t))
    (shown : ∀ t : GridTable, t.grid.shows (.row k row) attr =
      if row < t.grid.rows.length then f (some (value t)) else f none) : a.Plain μ attr := by
  refine .reads answer fun t _ => ⟨_, Reading.ofRow_reads row (evals t), ?_⟩
  rw [isRow, shown]
  split <;> rfl

theorem of_column {value : GridTable → α} (isColumn : a.identity = .column k column)
    (question : String) (read : Inquiry α) (f : Option α → AttributeValue)
    (answer : (a.answer attr : Act μ _) = f <$> a.read question (Reading.ofColumn column read))
    (evals : ∀ t : GridTable, read.eval t.answer = .ok (value t))
    (shown : ∀ t : GridTable, t.grid.shows (.column k column) attr =
      if column < t.grid.headers.length then f (some (value t)) else f none) : a.Plain μ attr := by
  refine .reads answer fun t _ => ⟨_, Reading.ofColumn_reads column (evals t), ?_⟩
  rw [isColumn, shown]
  split <;> rfl

theorem of_cell (isCell : a.identity = .cell k row column) (question : String)
    (f : Option CellText → AttributeValue)
    (answer : (a.answer attr : Act μ _) = f <$> a.read question (Reading.cell row column))
    (shown : ∀ g : Grid, g.shows (.cell k row column) attr =
      match g.cell? row column with
      | some text => f (some ⟨some text, g.header? column⟩)
      | none => f none) : a.Plain μ attr := by
  refine .reads answer ?_
  intro t rectangular
  obtain ⟨result, reads, value⟩ := Reading.cell_reads rectangular row column
  refine ⟨result, reads, ?_⟩
  rw [isCell, shown, value]
  cases t.grid.cell? row column <;> rfl

end Plain

theorem plain_table (isTable : a.identity = .table k) (h : attr ≠ .parent) (h' : attr ≠ .children)
    (h'' : attr ≠ .valid) : a.Plain μ attr := by
  have known : ∀ {value}, (a.answer attr : Act μ _) = pure value →
      (∀ g : Grid, g.shows (.table k) attr = value) → a.Plain μ attr :=
    fun answer shown => .known answer (isTable ▸ shown)
  have ofShape : ∀ {f : Option Shape → AttributeValue},
      (a.answer attr : Act μ _) = f <$> a.read "shape" Reading.shape →
      (∀ g : Grid, g.shows (.table k) attr =
        f (some ⟨Grid.nonempty? g.name, g.rows.length, g.headers.length⟩)) → a.Plain μ attr :=
    fun answer shown => .reads answer fun t _ =>
      ⟨_, Reading.shape_reads, by rw [isTable, shown]; rfl⟩
  cases attr with
  | parent | children | valid => contradiction
  | label =>
    refine ofShape (f := fun s => .ofText (s.bind Shape.name)) ?_ fun _ => rfl
    simp only [answer, label, isTable, Table.label, Table.shape, Table.tryShape,
      read, map_eq_pure_bind, bind_assoc, pure_bind]
  | childCount =>
    refine ofShape (f := fun s => .ofCount (s.map fun s => s.rows + s.columns)) ?_ fun _ => rfl
    simp only [answer, childCount, isTable, Table.childCount, Table.shape,
      Table.tryShape, read, map_eq_pure_bind, bind_assoc, pure_bind]
  | rowCount =>
    have answers : (a.answer .rowCount : Act μ _) =
        AttributeValue.ofCount <$> a.read "row_count" Reading.rowCount := by
      simp only [answer, roleAnswer, isTable, Table.rowCount, map_eq_pure_bind]
    exact .reads answers fun t _ => ⟨_, Reading.rowCount_reads, by rw [isTable]; rfl⟩
  | columnCount =>
    have answers : (a.answer .columnCount : Act μ _) =
        AttributeValue.ofCount <$> a.read "column_count" Reading.columnCount := by
      simp only [answer, roleAnswer, isTable, Table.columnCount, map_eq_pure_bind]
    exact .reads answers fun t _ => ⟨_, Reading.columnCount_reads, by rw [isTable]; rfl⟩
  | role => exact known rfl fun _ => by simp only [Grid.shows, role, isTable]
  | index =>
    refine known ?_ fun _ => rfl
    simp only [answer, indexInParent, isTable, pure_bind]
    rfl
  | rowIndex | columnIndex | header | columnSpan | value =>
    refine known ?_ fun _ => rfl
    simp only [answer, roleAnswer, isTable]

theorem plain_row (isRow : a.identity = .row k row) (h : attr ≠ .parent) (h' : attr ≠ .children)
    (h'' : attr ≠ .valid) : a.Plain μ attr := by
  have hidden : (a.answer attr : Act μ _) = pure .none →
      (∀ g : Grid, g.showsRow row attr = .none) →
      (∀ g : Grid, g.shows (.row k row) attr =
        if row < g.rows.length then g.showsRow row attr else .none) → a.Plain μ attr := by
    intro answer none shown
    refine .known answer ?_
    intro g
    rw [isRow, shown, none, ite_self]
  cases attr with
  | parent | children | valid => contradiction
  | index | rowIndex =>
    refine Plain.of_row isRow "row_index_in_table" (pure row) .ofIndex ?_ (fun t => rfl) fun t => rfl
    simp only [answer, indexInParent, roleAnswer, isRow, Row.index, Row.tryIndex, read,
      Reading.rowIndex, map_eq_pure_bind]
  | columnCount | childCount =>
    refine Plain.of_row isRow "column_count" (.question .columnCount) .ofCount ?_ (fun t => rfl) fun t => rfl
    simp only [answer, childCount, roleAnswer, isRow, Row.columnCount, Reading.columnsOfRow,
      map_eq_pure_bind]
  | role => exact .known rfl fun _ => by simp only [Grid.shows, role, isRow]
  | label =>
    refine hidden ?_ (fun _ => rfl) fun _ => rfl
    simp only [answer, label, isRow, pure_bind]
    rfl
  | columnIndex | rowCount | header | columnSpan | value =>
    refine hidden ?_ (fun _ => rfl) fun _ => rfl
    simp only [answer, roleAnswer, isRow]

theorem plain_column (isColumn : a.identity = .column k column) (h : attr ≠ .parent)
    (h' : attr ≠ .children) (h'' : attr ≠ .valid) : a.Plain μ attr := by
  have hidden : (a.answer attr : Act μ _) = pure .none →
      (∀ g : Grid, g.showsColumn column attr = .none) →
      (∀ g : Grid, g.shows (.column k column) attr =
        if column < g.headers.length then g.showsColumn column attr else .none) →
      a.Plain μ attr := by
    intro answer none shown
    refine .known answer ?_
    intro g
    rw [isColumn, shown, none, ite_self]
  cases attr with
  | parent | children | valid => contradiction
  | index | columnIndex =>
    refine Plain.of_column isColumn "column_number_in_table" (pure column) .ofIndex ?_ (fun t => rfl) fun t => rfl
    simp only [answer, indexInParent, roleAnswer, isColumn, Column.number, Column.tryNumber,
      read, Reading.columnIndex, map_eq_pure_bind]
  | columnSpan =>
    refine Plain.of_column isColumn "column_number_in_table" (pure column)
      (fun n => .ofCount (n.map fun _ => 1)) ?_ (fun t => rfl)
      fun t => rfl
    simp only [answer, roleAnswer, isColumn, Column.span, Column.number,
      Column.tryNumber, read, Reading.columnIndex, map_eq_pure_bind, bind_assoc, pure_bind]
  | label | header =>
    refine Plain.of_column isColumn "header_text" (.question (.header column))
      (fun text => .ofText text.join) ?_ (fun t => rfl)
      fun t => rfl
    simp only [answer, label, roleAnswer, isColumn, Column.header, Column.tryHeader, tryRead,
      read, Reading.headerText, map_eq_pure_bind, bind_assoc, pure_bind]
  | rowCount | childCount =>
    refine Plain.of_column isColumn "row_count" (.question .rowCount) .ofCount ?_ (fun t => rfl) fun t => rfl
    simp only [answer, childCount, roleAnswer, isColumn, Column.rowCount, Reading.rowsOfColumn,
      map_eq_pure_bind]
  | role => exact .known rfl fun _ => by simp only [Grid.shows, role, isColumn]
  | rowIndex | columnCount | value =>
    refine hidden ?_ (fun _ => rfl) fun _ => rfl
    simp only [answer, roleAnswer, isColumn]

theorem plain_cell (isCell : a.identity = .cell k row column) (h : attr ≠ .parent)
    (h' : attr ≠ .children) (h'' : attr ≠ .valid) : a.Plain μ attr := by
  have hidden : (a.answer attr : Act μ _) = pure .none →
      (∀ (g : Grid) (text : String), g.showsCell row column text attr = .none) →
      (∀ g : Grid, g.shows (.cell k row column) attr =
        match g.cell? row column with
        | some text => g.showsCell row column text attr
        | none => .none) → a.Plain μ attr := by
    intro answer none shown
    refine .known answer ?_
    intro g
    rw [isCell, shown]
    cases g.cell? row column with
    | some text => exact none g text
    | none => rfl
  cases attr with
  | parent | children | valid => contradiction
  | rowIndex =>
    refine Plain.of_cell isCell "row_index" (fun s => .ofIndex (s.map fun _ => row)) ?_ fun _ => rfl
    simp only [answer, roleAnswer, isCell, Cell.rowIndex, Cell.snapshot, Cell.trySnapshot, read,
      map_eq_pure_bind, bind_assoc, pure_bind]
  | index | columnIndex =>
    refine Plain.of_cell isCell "column_index" (fun s => .ofIndex (s.map fun _ => column)) ?_ fun _ => rfl
    simp only [answer, indexInParent, roleAnswer, isCell, Cell.columnIndex,
      Cell.snapshot, Cell.trySnapshot, read, map_eq_pure_bind, bind_assoc, pure_bind]
  | columnSpan =>
    refine Plain.of_cell isCell "column_index"
      (fun s => .ofCount ((s.map fun _ => column).map fun _ => 1)) ?_
      fun _ => rfl
    simp only [answer, roleAnswer, isCell, Cell.columnIndex, Cell.snapshot, Cell.trySnapshot, read,
      map_eq_pure_bind, bind_assoc, pure_bind]
  | label | value =>
    refine Plain.of_cell isCell "text" (fun s => .ofText (s.bind CellText.text)) ?_ fun _ => rfl
    simp only [answer, label, roleAnswer, isCell, Cell.text, Cell.snapshot, Cell.trySnapshot, read,
      map_eq_pure_bind, bind_assoc, pure_bind]
  | header =>
    refine Plain.of_cell isCell "header_text" (fun s => .ofText (s.bind CellText.header)) ?_ fun _ => rfl
    simp only [answer, roleAnswer, isCell, Cell.header, Cell.snapshot, Cell.trySnapshot, read,
      map_eq_pure_bind, bind_assoc, pure_bind]
  | childCount =>
    refine Plain.of_cell isCell "child_count" (fun s => .ofCount (s.map fun _ => 0)) ?_ fun _ => rfl
    simp only [answer, childCount, isCell, Cell.childCount, Cell.snapshot, Cell.trySnapshot, read,
      map_eq_pure_bind, bind_assoc, pure_bind]
  | role => exact .known rfl fun _ => by simp only [Grid.shows, role, isCell]
  | rowCount | columnCount =>
    refine hidden ?_ (fun _ _ => rfl) fun _ => rfl
    simp only [answer, roleAnswer, isCell]

/-- Every node answers every attribute so that is about no other nodes, nor only about the table's
being there. -/
theorem plain (a : Adapter) (h : attr ≠ .parent) (h' : attr ≠ .children) (h'' : attr ≠ .valid) :
    a.Plain μ attr := by
  cases e : a.identity with
  | table k => exact plain_table e h h' h''
  | row k row => exact plain_row e h h' h''
  | column k column => exact plain_column e h h' h''
  | cell k row column => exact plain_cell e h h' h''

end Adapter

end TableAccess
