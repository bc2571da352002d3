import TableAccess.Proofs.Runs
import TableAccess.Update

/-!
# Readings that fail

Whatever a node is asked, it begins with one reading of its table, or with none. When that reading
fails, for whatever cause, the node has its answer: no value, an empty list, or the cause itself if
that is what was asked for.

## The model

* `Adapter.Degrades` — an act that has its answer when its first reading fails.
* `Adapter.Withholds` — an act that comes to nothing then, for whatever cause; `Role.Reads` — the
  attributes for which a node reads its table.
* `Adapter.DegradesThroughout` — whatever a node is asked is such an act.
-/

namespace TableAccess

variable {μ α β γ : Type} {a : Adapter}

namespace Adapter

/-- An act of a node begins with one reading of its table, or with none; when it fails the act is
over, and there is nothing but that. -/
inductive Degrades (a : Adapter) (act : Act μ β) (nothing : Unavailable → β) : Prop where
  /-- It answers at once. -/
  | known (answers : ∀ w, ∃ value w', act w = .done (.ok value) w')
  /-- It reads the table, and goes on with what comes of that. -/
  | reads {α : Type} (read : Inquiry (Except Unavailable α)) (f : Except Unavailable α → Act μ β)
      (run : act = a.tryRead read >>= f)
      (fails : ∀ u w, ∃ w', f (.error u) w = .done (.ok (nothing u)) w')

namespace Degrades

variable {act : Act μ β} {nothing : Unavailable → β}

theorem tryRead (read : Inquiry (Except Unavailable α)) :
    a.Degrades (a.tryRead read : Act μ _) .error :=
  .reads read Pure.pure (bind_pure _).symm fun _ w => ⟨w, rfl⟩

/-- Something else is made of the answer. -/
theorem map (h : a.Degrades act nothing) (g : β → γ) :
    a.Degrades (do let value ← act; Pure.pure (g value) : Act μ γ) fun u => g (nothing u) := by
  cases h with
  | known answers =>
    refine .known fun w => ?_
    obtain ⟨value, w', run⟩ := answers w
    exact ⟨g value, w', by rw [Act.bind_apply, run]; rfl⟩
  | @reads α read f run fails =>
    refine .reads read (fun r => do let value ← f r; Pure.pure (g value)) ?_ fun u w => ?_
    · rw [run, bind_assoc]
    · obtain ⟨w', nothing⟩ := fails u w
      exact ⟨w', by rw [Act.bind_apply, nothing]; rfl⟩

end Degrades

/-- An act of a node comes to nothing when there is nothing to be read: it does not read the table at
all, or its first reading fails, for whatever cause, and is told at most. -/
inductive Withholds (a : Adapter) (act : Act μ β) (nothing : β) : (reads : Bool) → Prop where
  /-- It answers at once. -/
  | unread (answers : act = pure nothing) : Withholds a act nothing false
  /-- It reads the table, and goes on with what comes of that. -/
  | reads {α : Type} (read : Inquiry (Except Unavailable α)) (f : Except Unavailable α → Act μ β)
      (run : act = a.tryRead read >>= f)
      (fails : ∀ u w, ∃ log, f (.error u) w = .done (.ok nothing) { w with log := log }) :
    Withholds a act nothing true

namespace Withholds

variable {act : Act μ β} {nothing : β} {reads : Bool}

theorem degrades (h : a.Withholds act nothing reads) : a.Degrades act fun _ => nothing := by
  cases h with
  | unread answers => exact .known fun w => ⟨nothing, w, by rw [answers, Act.pure_apply]⟩
  | reads read f run fails =>
    exact .reads read f run fun u w => (fails u w).imp' _ fun _ nothing => nothing

/-- Something else is made of the answer. -/
theorem map (h : a.Withholds act nothing reads) (g : β → γ) :
    a.Withholds (do let value ← act; Pure.pure (g value) : Act μ γ) (g nothing) reads := by
  cases h with
  | unread answers => exact .unread (by rw [answers, pure_bind])
  | reads read f run fails =>
    refine .reads read (fun r => do let value ← f r; Pure.pure (g value)) ?_ fun u w => ?_
    · rw [run, bind_assoc]
    · obtain ⟨log, nothing⟩ := fails u w
      exact ⟨log, by rw [Act.bind_apply, nothing]; rfl⟩

section Bind

variable (question : String) (read : Inquiry (Except Unavailable α)) {rest : Option α → Act μ γ}
  {value : γ} (fails : ∀ w, rest none w = .done (.ok value) w)

include fails

/-- A reading that fails is told, and counts as no value. -/
theorem degrade_bind :
    a.Withholds (do rest (← a.degrade question (← a.tryRead read))) value true :=
  .reads read (fun r => a.degrade question r >>= rest) rfl fun u w =>
    ⟨_, fails (w.tell (.queryUnavailable a.role a.key.toRaw question u))⟩

theorem read_bind : a.Withholds (a.read question read >>= rest) value true := by
  rw [Adapter.read, bind_assoc]
  exact degrade_bind question read fails

end Bind

theorem read (question : String) (read : Inquiry (Except Unavailable α)) :
    a.Withholds (a.read question read : Act μ _) none true := by
  rw [← bind_pure (a.read question read)]
  exact read_bind question read fun _ => rfl

end Withholds

/-! ### What nodes are asked -/

end Adapter

/-- The attributes that are read from the table, or looked for there, by what a node stands for. -/
def Role.Reads : Role → Attribute → Bool
  | _, .valid => true
  | .table, .label | .table, .children | .table, .childCount | .table, .rowCount
  | .table, .columnCount => true
  | .row, .index | .row, .rowIndex | .row, .children | .row, .childCount | .row, .columnCount => true
  | .column, .label | .column, .index | .column, .columnIndex | .column, .children
  | .column, .childCount | .column, .rowCount | .column, .header | .column, .columnSpan => true
  | .cell, .label | .cell, .index | .cell, .rowIndex | .cell, .columnIndex | .cell, .childCount
  | .cell, .header | .cell, .columnSpan | .cell, .value => true
  | _, _ => false

namespace Adapter

section Asked

variable (a)

theorem hasTree_run (w : World μ) : a.hasTree w = .done (.ok (a.tree? w).isSome) w := rfl

theorem shape_withholds : a.Withholds (Table.shape a : Act μ _) none true := .read _ Reading.shape

theorem header_withholds (column : Nat) :
    a.Withholds (Column.header a column : Act μ _) none true :=
  .degrade_bind _ (Reading.headerText column) fun _ => rfl

theorem snapshot_withholds (question : String) (row column : Nat) :
    a.Withholds (Cell.snapshot a question row column : Act μ _) none true :=
  .read _ (Reading.cell row column)

/-- The nodes of what is counted. -/
theorem counted_withholds (question : String) (read : Inquiry (Except Unavailable Nat))
    {make : Nat → Act μ (List Adapter)} : a.Withholds (do
      match ← a.read question read, ← a.hasTree with
      | some n, true => make n
      | _, _ => pure [] : Act μ (List Adapter)) [] true :=
  .read_bind question read fun w => by rw [Act.bind_apply, hasTree_run]; rfl

theorem cells_withholds_row (row : Nat) : a.Withholds (Row.cells a row : Act μ _) [] true :=
  a.counted_withholds _ (Reading.columnsOfRow row)

theorem cells_withholds_column (column : Nat) :
    a.Withholds (Column.cells a column : Act μ _) [] true :=
  a.counted_withholds _ (Reading.rowsOfColumn column)

theorem children_withholds : a.Withholds (a.children : Act μ _) [] (a.role.Reads .children) := by
  unfold Adapter.children role
  cases a.identity with
  | table => exact .read_bind _ Reading.shape fun _ => rfl
  | row => exact a.cells_withholds_row _
  | column => exact a.cells_withholds_column _
  | cell => exact .unread rfl

theorem label_withholds : a.Withholds (a.label : Act μ _) none (a.role.Reads .label) := by
  unfold Adapter.label role
  cases a.identity with
  | table => exact a.shape_withholds.map _
  | row => exact .unread rfl
  | column => exact a.header_withholds _
  | cell => exact (a.snapshot_withholds _ _ _).map _

theorem childCount_withholds :
    a.Withholds (a.childCount : Act μ _) none (a.role.Reads .childCount) := by
  unfold Adapter.childCount role
  cases a.identity with
  | table => exact a.shape_withholds.map _
  | row => exact .read _ (Reading.columnsOfRow _)
  | column => exact .read _ (Reading.rowsOfColumn _)
  | cell => exact (a.snapshot_withholds _ _ _).map _

theorem indexInParent_withholds :
    a.Withholds (a.indexInParent : Act μ _) none (a.role.Reads .index) := by
  unfold Adapter.indexInParent role
  cases a.identity with
  | table => exact .unread rfl
  | row => exact .read _ (Reading.rowIndex _)
  | column => exact .read _ (Reading.columnIndex _)
  | cell => exact (a.snapshot_withholds _ _ _).map _

/-- The parent is looked up in the tree, under the key that the node remembers. -/
theorem parentOf_run (w : World μ) : ∃ parent, a.parentOf w = .done (.ok parent) w ∧
    ∀ b, parent = some b → ∃ k tree, a.parent = some k ∧ w.trees[a.tree]? = some tree ∧
      tree.get? k = some b := by
  have parentNode : ∃ parent, a.parentNode w = .done (.ok parent) w ∧
      ∀ b, parent = some b → ∃ k tree, a.parent = some k ∧ w.trees[a.tree]? = some tree ∧
        tree.get? k = some b := by
    unfold Adapter.parentNode Peer.isInvalidated
    cases a.parent with
    | none => exact ⟨none, rfl, by simp⟩
    | some k =>
      simp only [Act.bind_apply, Act.get_apply, Progress.bind]
      cases w.peers[a.peer]? with
      | none => exact ⟨none, rfl, by simp⟩
      | some peer =>
        simp only [Act.pure_apply]
        cases peer.invalidated with
        | true => exact ⟨none, rfl, by simp⟩
        | false =>
          refine ⟨_, rfl, fun b hb => ?_⟩
          obtain ⟨tree, held, stored⟩ := Option.bind_eq_some_iff.1 hb
          exact ⟨k, tree, rfl, (Option.filter_eq_some_iff.1 held).1, stored⟩
  unfold Adapter.parentOf
  cases a.identity with
  | table => exact ⟨none, rfl, by simp⟩
  | _ => exact parentNode

/-- A node answers with the id of its parent. -/
theorem answer_parent {w : World μ} {parent : Option Adapter}
    (run : a.parentOf w = .done (.ok parent) w) :
    a.answer .parent w =
      .done (.ok ((parent.map fun b => .node b.key.toRaw).getD .none)) w := by
  show (a.parentOf >>= _ : Act μ AttributeValue) w = _
  rw [Act.bind_apply, run]
  cases parent <;> rfl

/-- The answer to what was not read. -/
def withheld : Attribute → AttributeValue
  | .children => .nodes []
  | _ => .none

theorem roleAnswer_withholds {attr : Attribute}
    (carried : attr ∉ [.valid, .label, .index, .children, .childCount]) :
    a.Withholds (a.roleAnswer attr : Act μ _) .none (a.role.Reads attr) := by
  unfold Adapter.roleAnswer role
  generalize a.identity = identity
  split
  · exact (Withholds.read _ Reading.rowCount).map _
  · exact (Withholds.read _ Reading.columnCount).map _
  · exact (Withholds.read _ (Reading.rowIndex _)).map _
  · exact (Withholds.read _ (Reading.columnsOfRow _)).map _
  · exact (Withholds.read _ (Reading.columnIndex _)).map _
  · exact (a.header_withholds _).map _
  · exact ((Withholds.read _ (Reading.columnIndex _)).map _).map _
  · exact (Withholds.read _ (Reading.rowsOfColumn _)).map _
  · exact ((a.snapshot_withholds _ _ _).map _).map _
  · exact ((a.snapshot_withholds _ _ _).map _).map _
  · exact ((a.snapshot_withholds _ _ _).map _).map _
  · exact ((a.snapshot_withholds _ _ _).map _).map _
  · exact ((a.snapshot_withholds _ _ _).map _).map _
  · have unread : identity.role.Reads attr = false := by
      cases identity <;> cases attr <;> first | rfl | simp_all
    rw [unread]
    exact .unread rfl

/-- Any attribute but what is known of the node itself has no value when it cannot be read. -/
theorem answer_withholds {attr : Attribute} (role : attr ≠ .role) (valid : attr ≠ .valid)
    (parent : attr ≠ .parent) :
    a.Withholds (a.answer attr : Act μ _) (withheld attr) (a.role.Reads attr) := by
  unfold Adapter.answer
  split
  · contradiction
  · contradiction
  · exact a.label_withholds.map _
  · contradiction
  · exact a.children_withholds.map _
  · exact a.childCount_withholds.map _
  · exact a.indexInParent_withholds.map _
  · have none : withheld attr = .none := by
      cases attr <;> first | rfl | contradiction
    rw [none]
    exact a.roleAnswer_withholds (by simp_all)

/-- Whether the table is valid is answered as far as it is known; any other attribute that cannot be
read has no value. -/
theorem answer_degrades {attr : Attribute} (h : attr ≠ .valid) :
    a.Degrades (a.answer attr : Act μ _) fun _ => withheld attr := by
  by_cases role : attr = .role
  · subst role
    exact .known fun w => ⟨.role a.role, w, rfl⟩
  · by_cases parent : attr = .parent
    · subst parent
      refine .known fun w => ?_
      obtain ⟨parent, run, -⟩ := a.parentOf_run w
      exact ⟨_, w, a.answer_parent run⟩
    · exact (a.answer_withholds role h parent).degrades

theorem build_withholds : a.Withholds (a.build : Act μ _) none true := by
  unfold Adapter.build
  split
  · exact .read_bind _ Reading.shape fun _ => rfl
  · exact .read_bind _ (Reading.rowIndex _) fun _ => rfl
  · exact .degrade_bind _ (Reading.headerText _) fun _ => rfl
  · exact .read_bind _ (Reading.cell _ _) fun _ => rfl

theorem treeChildren_degrades : a.Degrades (a.treeChildren : Act μ _) fun _ => [] := by
  unfold Adapter.treeChildren
  split
  · exact (Withholds.unread rfl).degrades
  · exact a.children_withholds.degrades

/-- A node that is there only if the table says so. -/
theorem nodeIf_withholds (question : String) (read : Inquiry (Except Unavailable Bool))
    (make : Act μ Adapter) :
    a.Withholds (do Table.nodeIf a (← a.read question read) make) none true := by
  refine .read_bind question read fun w => ?_
  unfold Table.nodeIf
  rw [if_neg (by simp)]
  rfl

end Asked

/-- Whatever a node is asked, a reading that fails leaves it with no value, an empty list or the
cause. -/
structure DegradesThroughout (μ : Type) (a : Adapter) : Prop where
  /-- An attribute has no value, or an empty list for one. -/
  answer : ∀ {attr : Attribute}, attr ≠ .valid →
    a.Degrades (a.answer attr : Act μ _) fun _ => withheld attr
  children : a.Degrades (a.children : Act μ _) fun _ => []
  treeChildren : a.Degrades (a.treeChildren : Act μ _) fun _ => []
  childCount : a.Degrades (a.childCount : Act μ _) fun _ => none
  label : a.Degrades (a.label : Act μ _) fun _ => none
  index : a.Degrades (a.indexInParent : Act μ _) fun _ => none
  /-- The node is not written out. -/
  build : a.Degrades (a.build : Act μ _) fun _ => none
  /-- Rows, columns and cells are not found. -/
  row : ∀ row, a.Degrades (Table.row a row : Act μ _) fun _ => none
  column : ∀ column, a.Degrades (Table.column a column : Act μ _) fun _ => none
  cell : ∀ row column, a.Degrades (Table.cell a row column : Act μ _) fun _ => none
  rows : a.Degrades (Table.rows a : Act μ _) fun _ => []
  columns : a.Degrades (Table.columns a : Act μ _) fun _ => []
  rowCells : ∀ row, a.Degrades (Row.cells a row : Act μ _) fun _ => []
  columnCells : ∀ column, a.Degrades (Column.cells a column : Act μ _) fun _ => []
  headers : a.Degrades (Table.columnHeaders a : Act μ _) fun _ => []
  /-- Any other value is not there. -/
  read : ∀ {α : Type} question (read : Inquiry (Except Unavailable α)),
    a.Degrades (a.read question read : Act μ _) fun _ => none
  /-- Who asks for the cause is told. -/
  tryRead : ∀ {α : Type} (read : Inquiry (Except Unavailable α)),
    a.Degrades (a.tryRead read : Act μ _) .error
  tryText : ∀ row column, a.Degrades (Cell.tryText a row column : Act μ _) .error

theorem degradesThroughout (a : Adapter) : a.DegradesThroughout μ where
  answer h := a.answer_degrades h
  children := a.children_withholds.degrades
  treeChildren := a.treeChildren_degrades
  childCount := a.childCount_withholds.degrades
  label := a.label_withholds.degrades
  index := a.indexInParent_withholds.degrades
  build := a.build_withholds.degrades
  row row := (a.nodeIf_withholds _ (Reading.hasRow row) _).degrades
  column column := (a.nodeIf_withholds _ (Reading.hasColumn column) _).degrades
  cell row column := (a.nodeIf_withholds _ (Reading.hasCell row column) _).degrades
  rows := (a.counted_withholds _ Reading.rowCount).degrades
  columns := (a.counted_withholds _ Reading.columnCount).degrades
  rowCells row := (a.cells_withholds_row row).degrades
  columnCells column := (a.cells_withholds_column column).degrades
  headers := ((Withholds.read _ Reading.headers).map _).degrades
  read question read := (Withholds.read question read).degrades
  tryRead := .tryRead
  tryText row column := (Degrades.tryRead (Reading.cell row column)).map _

end Adapter

end TableAccess
