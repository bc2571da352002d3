import TableAccess.Proofs.Shown
import TableAccess.Proofs.Visits

/-!
# The layout of a table

The contents of a table decide how it is written out: which nodes there are, in which order, what each
of them says, and which nodes have to be there for that. Only the ids are up to the tree.

## The model

* `Grid.branches` — what the children of a node stand for in the serialized tree.
* `Grid.below` — a node and all below it, in order, each with its level.
* `Grid.written` — a node written out, the ids of its children being given.
* `Grid.sown` — the nodes that are asked for while a node and all below it are written out.
* `Grid.serial`, `Grid.under` — all of a table, and all of a part, in order, as a list; `Grid.block` —
  where a row stands in it.
-/

namespace TableAccess

/-- The position of a part among those of its kind: the columns count the cells of a row. -/
def Identity.position : Identity → Option Nat
  | .table _ => none
  | .row _ n => some n
  | .column _ n => some n
  | .cell _ _ n => some n

namespace Grid

variable {g : Grid} {i j : Identity} {k : NodeKey} {depth level : Nat} {x : Nat × Identity}

/-- What a node stands for is there. -/
def Includes (g : Grid) : Identity → Prop
  | .table _ => True
  | .row _ row => row < g.rows.length
  | .column _ column => column < g.headers.length
  | .cell _ row column => row < g.rows.length ∧ column < g.headers.length

/-- A list of the nodes of all rows and columns finds room. -/
def Fits (g : Grid) : Prop := Room.Fits .anyNode (g.rows.length + g.headers.length)

/-- The label of a node. -/
def label (g : Grid) : Identity → Option String
  | .table _ => nonempty? g.name
  | .row _ _ => none
  | .column _ column => g.header? column
  | .cell _ row column => g.cell? row column

/-- What the children of a node stand for in the serialized tree, where a cell belongs to its row
alone. -/
def branches (g : Grid) (i : Identity) : List Identity :=
  match i with
  | .column _ _ => []
  | i => g.parts i

/-- A node written out. -/
def written (g : Grid) (id : Identity → NodeId) : Identity → TreeNode
  | .table k => { TreeNode.ofRole .table with
      label := nonempty? g.name
      rowCount := some g.rows.length
      columnCount := some g.headers.length
      children := (g.branches (.table k)).map id }
  | .row k row => { TreeNode.ofRole .row with
      rowIndex := some row
      children := (g.branches (.row k row)).map id }
  | .column _ column => { TreeNode.ofRole .genericContainer with
      columnIndex := some column
      label := g.header? column }
  | .cell _ row column => { TreeNode.ofRole .cell with
      rowIndex := some row
      columnIndex := some column
      label := g.cell? row column }

/-- A node and all below it, at most so many levels of them, each before its children. -/
def below (g : Grid) : (depth level : Nat) → Identity → List (Nat × Identity)
  | 0, _, _ => []
  | depth + 1, level, i => (level, i) :: (g.branches i).flatMap (g.below depth (level + 1))

/-- The nodes that are asked for to have the node of a part. A cell needs its row. -/
def asked : Identity → List Identity
  | .cell k row column => [.row k row, .cell k row column]
  | i => [i]

/-- The nodes that are asked for while a node and all below it are written out. -/
def sown (g : Grid) : (depth : Nat) → Identity → List Identity
  | 0, _ => []
  | depth + 1, i => (g.branches i).flatMap asked ++ (g.branches i).flatMap (g.sown depth)

/-- All of a table: the table, each row with its cells behind it, and the columns. -/
def serial (g : Grid) (k : NodeKey) : List Identity :=
  .table k ::
    ((List.range g.rows.length).flatMap fun row =>
      .row k row :: (List.range g.headers.length).map (.cell k row)) ++
    (List.range g.headers.length).map (.column k)

/-- A part and all below it in order. -/
def under (g : Grid) : Identity → List Identity
  | .table k => g.serial k
  | .row k row => .row k row :: g.branches (.row k row)
  | i => [i]

/-- What belongs to a row and its cells, of a list with an entry for each part of a table in order. -/
def block (g : Grid) {α : Type} (row : Nat) (entries : List α) : List α :=
  (entries.drop (1 + row * (1 + g.headers.length))).take (1 + g.headers.length)

/-- If one of all rows and columns does, so does a list of some nodes of one kind. -/
theorem Fits.nodes {count : Nat} (h : g.Fits) (le : count ≤ g.rows.length + g.headers.length) :
    Room.Fits .node count := by
  simp only [Fits, Room.Fits, Room.Item.size] at h ⊢
  omega

/-! ### Branches -/

@[simp] theorem written_role (g : Grid) (id : Identity → NodeId) (i : Identity) :
    (g.written id i).role = i.role.toTreeRole := by
  cases i <;> rfl

@[simp] theorem written_label (g : Grid) (id : Identity → NodeId) (i : Identity) :
    (g.written id i).label = g.label i := by
  cases i <;> rfl

@[simp] theorem written_children (g : Grid) (id : Identity → NodeId) (i : Identity) :
    (g.written id i).children = (g.branches i).map id := by
  cases i <;> rfl

/-- Only the ids of the children matter. -/
theorem written_congr {id id' : Identity → NodeId}
    (same : (g.branches i).map id = (g.branches i).map id') : g.written id i = g.written id' i := by
  cases i <;> simp only [written, same]

theorem divided_branches (g : Grid) (i : Identity) : i.Divided (g.branches i) := by
  cases i with
  | table k => exact ⟨g.rows.length, g.headers.length, rfl⟩
  | row k row =>
    simp only [branches, parts]
    split
    · exact ⟨g.headers.length, rfl⟩
    · exact ⟨0, rfl⟩
  | column k column | cell k row column => rfl

/-- What the children of a node stand for is there. -/
theorem includes_of_part (hj : j ∈ g.parts i) : g.Includes j ∧ j.tableKey = i.tableKey := by
  cases i with
  | table k =>
    rcases List.mem_append.1 hj with hj | hj
    · obtain ⟨row, hr, rfl⟩ := List.mem_map.1 hj
      exact ⟨List.mem_range.1 hr, rfl⟩
    · obtain ⟨column, hc, rfl⟩ := List.mem_map.1 hj
      exact ⟨List.mem_range.1 hc, rfl⟩
  | row k row =>
    simp only [parts] at hj
    split at hj
    · obtain ⟨column, hc, rfl⟩ := List.mem_map.1 hj
      exact ⟨⟨‹_›, List.mem_range.1 hc⟩, rfl⟩
    · cases hj
  | column k column =>
    simp only [parts] at hj
    split at hj
    · obtain ⟨row, hr, rfl⟩ := List.mem_map.1 hj
      exact ⟨⟨List.mem_range.1 hr, ‹_›⟩, rfl⟩
    · cases hj
  | cell k row column => cases hj

theorem tableKey_of_part (hj : j ∈ g.parts i) : j.tableKey = i.tableKey := (includes_of_part hj).2

/-- The branches of a node are there. -/
theorem includes_of_branch (hj : j ∈ g.branches i) : g.Includes j ∧ j.tableKey = i.tableKey := by
  cases i with
  | column k column => cases hj
  | _ => exact includes_of_part hj

theorem Includes.below (h : g.Includes i) (hx : x ∈ g.below depth level i) :
    g.Includes x.2 ∧ x.2.tableKey = i.tableKey := by
  induction depth generalizing level i with
  | zero => cases hx
  | succ depth ih =>
    rcases List.mem_cons.1 hx with rfl | hx
    · exact ⟨h, rfl⟩
    · obtain ⟨j, hj, hx⟩ := List.mem_flatMap.1 hx
      obtain ⟨there, same⟩ := includes_of_branch hj
      exact (ih there hx).imp_right fun e => e.trans same

/-- What is asked for is there, and is of the same table. -/
theorem Includes.sown (h : g.Includes i) (hj : j ∈ g.sown depth i) :
    g.Includes j ∧ j.tableKey = i.tableKey := by
  induction depth generalizing i with
  | zero => cases hj
  | succ depth ih =>
    rcases List.mem_append.1 hj with hj | hj
    · obtain ⟨p, hp, hj⟩ := List.mem_flatMap.1 hj
      obtain ⟨there, same⟩ := includes_of_branch hp
      cases p with
      | cell k row column =>
        rcases List.mem_cons.1 hj with rfl | hj
        · exact ⟨there.1, same⟩
        · obtain rfl := List.mem_singleton.1 hj
          exact ⟨there, same⟩
      | table | row | column =>
        obtain rfl := List.mem_singleton.1 hj
        exact ⟨there, same⟩
    · obtain ⟨p, hp, hj⟩ := List.mem_flatMap.1 hj
      obtain ⟨there, same⟩ := includes_of_branch hp
      exact (ih there hj).imp_right fun e => e.trans same

/-- Each part asks for some node. -/
theorem asked_ne_nil {parts : List Identity} (some : 0 < parts.length) : parts.flatMap asked ≠ [] := by
  obtain ⟨i, hi⟩ := List.exists_mem_of_length_pos some
  intro none
  have own : i ∈ parts.flatMap asked :=
    List.mem_flatMap.2 ⟨i, hi, by cases i <;> simp [asked]⟩
  rw [none] at own
  cases own

/-! ### The whole table -/

/-- Below a node without branches there is nothing. -/
theorem below_leaf (leaf : g.branches i = []) (depth level : Nat) :
    g.below (depth + 1) level i = [(level, i)] := by
  rw [below, leaf, List.flatMap_nil]

/-- The branches of a row that is there are its cells. -/
theorem branches_row {row : Nat} (there : row < g.rows.length) :
    g.branches (.row k row) = (List.range g.headers.length).map (.cell k row) := if_pos there

/-- Nothing is below the branches of a row. -/
theorem branches_of_row {row : Nat} (hj : j ∈ g.branches (.row k row)) : g.branches j = [] := by
  rcases (g.divided_branches (.row k row)).of_mem hj with
    ⟨_, _, h, -⟩ | ⟨_, _, h, -⟩ | ⟨_, _, _, -, rfl⟩
  · cases h
  · cases h
  · rfl

theorem below_row (g : Grid) (k : NodeKey) (row depth level : Nat) :
    (g.below (depth + 2) level (.row k row)).map Prod.snd = g.under (.row k row) := by
  have leaves : (g.branches (.row k row)).flatMap (fun j =>
      (g.below (depth + 1) (level + 1) j).map Prod.snd) =
      (g.branches (.row k row)).flatMap fun j => [j] :=
    List.flatMap_congr fun j mem => by rw [below_leaf (branches_of_row mem)]; rfl
  rw [below, List.map_cons, List.map_flatMap, leaves, List.flatMap_singleton']
  rfl

/-- A table is written out in this order. -/
theorem below_table (g : Grid) (k : NodeKey) :
    (g.below Adapter.levels 0 (.table k)).map Prod.snd = g.serial k := by
  have rows : ((List.range g.rows.length).flatMap fun row =>
      (g.below 2 1 (.row k row)).map Prod.snd) = (List.range g.rows.length).flatMap fun row =>
        .row k row :: (List.range g.headers.length).map (.cell k row) :=
    List.flatMap_congr fun row mem => by
      rw [below_row, under, branches_row (List.mem_range.1 mem)]
  have columns : ∀ column, g.below 2 1 (.column k column) = [(1, .column k column)] :=
    fun column => below_leaf rfl 1 _
  have branches : g.branches (.table k) = (List.range g.rows.length).map (.row k) ++
      (List.range g.headers.length).map (.column k) := rfl
  show .table k :: ((g.branches (.table k)).flatMap (g.below 2 1)).map Prod.snd = _
  rw [branches, List.flatMap_append, List.map_append, List.map_flatMap, List.map_flatMap,
    List.flatMap_map, List.flatMap_map, rows]
  simp only [columns, List.map_cons, List.map_nil, ← List.map_eq_flatMap]
  rfl

/-- So is any part of it. -/
theorem below_eq (g : Grid) (i : Identity) :
    (g.below Adapter.levels 0 i).map Prod.snd = g.under i := by
  cases i with
  | table k => exact g.below_table k
  | row k row => exact g.below_row k row 1 0
  | column k column => exact congrArg (List.map Prod.snd) (below_leaf rfl 2 0)
  | cell k row column => exact congrArg (List.map Prod.snd) (below_leaf rfl 2 0)

theorem mem_under_self (g : Grid) (i : Identity) : i ∈ g.under i := by
  cases i with
  | table k => exact List.mem_cons_self
  | row k row => exact List.mem_cons_self
  | column k column | cell k row column => exact List.mem_singleton_self _

/-- Each part of a table is in it, and nothing else. -/
theorem mem_serial : i ∈ g.serial k ↔ i.tableKey = k ∧ g.Includes i := by
  cases i <;> simp [serial, Identity.tableKey, Includes, eq_comm] <;> grind

/-- The branches of what is below a part are below it. -/
theorem under_closed {p : Identity} (hp : p ∈ g.under i) (hj : j ∈ g.branches p) :
    j ∈ g.under i := by
  cases i with
  | table k =>
    obtain ⟨there, same⟩ := includes_of_branch hj
    exact mem_serial.2 ⟨same.trans (mem_serial.1 hp).1, there⟩
  | row k row =>
    rcases List.mem_cons.1 hp with rfl | hp
    · exact List.mem_cons_of_mem _ hj
    · rw [branches_of_row hp] at hj
      cases hj
  | column k column | cell k row column =>
    obtain rfl := List.mem_singleton.1 hp
    cases hj

theorem length_serial (g : Grid) (k : NodeKey) : (g.serial k).length =
    1 + g.rows.length + g.rows.length * g.headers.length + g.headers.length := by
  simp only [serial, List.cons_append, List.length_cons, List.length_append, List.length_flatMap,
    List.length_map, List.length_range, List.map_const', List.sum_replicate_nat]
  rw [Nat.mul_add]
  omega

theorem block_map {α β : Type} (g : Grid) (f : α → β) (row : Nat) (entries : List α) :
    g.block row (entries.map f) = (g.block row entries).map f := by
  rw [block, block, ← List.map_drop, ← List.map_take]

/-- A row that is there stands in the table with its cells behind it, after the rows before it. -/
theorem block_serial {row : Nat} (there : row < g.rows.length) :
    g.block row (g.serial k) = g.under (.row k row) := by
  have rows : List.range g.rows.length =
      List.range row ++ row :: (List.range g.rows.length).drop (row + 1) := by
    have less : row < (List.range g.rows.length).length := by rwa [List.length_range]
    conv_lhs => rw [← List.take_append_drop row (List.range g.rows.length)]
    rw [List.drop_eq_getElem_cons less, List.getElem_range, List.take_range,
      Nat.min_eq_left (Nat.le_of_lt there)]
  have before : ((List.range row).flatMap fun row =>
      .row k row :: (List.range g.headers.length).map (Identity.cell k row)).length =
        row * (1 + g.headers.length) := by
    simp only [List.length_cons, List.length_flatMap, List.length_map, List.length_range,
      List.map_const', List.sum_replicate_nat, Nat.add_comm]
  have own : (g.under (.row k row)).length = 1 + g.headers.length := by
    rw [under, branches_row there, List.length_cons, List.length_map, List.length_range, Nat.add_comm]
  have cells : (.row k row :: (List.range g.headers.length).map (.cell k row)) =
      g.under (.row k row) := by
    rw [under, branches_row there]
  rw [block, serial, rows, List.flatMap_append, List.flatMap_cons, cells, Nat.add_comm 1 (row * _),
    List.cons_append, List.drop_succ_cons, List.append_assoc, List.drop_left' before,
    List.append_assoc, List.take_left' own]

end Grid

end TableAccess
