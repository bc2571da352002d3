import TableAccess.Proofs.Returning

/-!
# Ways to a cell

There are several ways to the node of a cell. The table yields it; so does the row among its cells, and
so does the column; and whoever asks a bridge for children comes down to it from the table, through the
row or through the column. On each way nodes are made that are not there yet. As long as the contents
stay all ways lead to one node, whichever was gone first and whatever was there before: a part that has
a node never gets another one.

## The model

* `Stage.Later` — a table that is as it was, with more nodes; `Finds.only` — a part has one node.
* `Brings.yieldsRow`, `Brings.yieldsColumn`, `Brings.yieldsCell` — a table yields nodes, found or made.
* `Brings.queryChildren` — a bridge is asked for children.
* `Route` — a way to a cell; `Route.Leads` — what whoever goes it comes to.
* `Stage.RoutesMeet` — where all ways lead; `routes_meet` — the main statement.
-/

namespace TableAccess

variable {μ α : Type} {R : World μ → World μ → Prop} {w w' w'' : World μ} {s : Stage}
  {E : Tree → Tree → Prop} {i : Identity} {a b x y : Adapter} {k : NodeKey} {bridge : BridgeId}
  {row column : Nat} {parts : List Identity}

/-! ### Nodes that stay -/

namespace Stage

theorem Later.trans (h : s.Later w w') (h' : s.Later w' w'') : s.Later w w'' := by
  obtain ⟨-, parts, since⟩ := h
  obtain ⟨ready, parts', since'⟩ := h'
  exact ⟨ready, _, since.trans (Keeps.bears (μ := μ) s) since'⟩

theorem Later.stays (h : s.Later w w') (found : s.Finds w i a) : s.Finds w' i a := by
  obtain ⟨-, parts, since⟩ := h
  exact since.stays found

theorem Writes.later {n : TreeNode} (h : s.Writes w i n) (later : s.Later w w') : s.Writes w' i n := by
  obtain ⟨-, parts, since⟩ := later
  exact h.since since

/-- A part that has a node has no other one in the tree. -/
theorem Finds.only {tree : Tree} (found : s.Finds w i a) (stands : s.Stands w)
    (ht : w.trees[s.tree]? = some tree) (stored : tree.get? k = some b) (same : b.identity = i) :
    b = a := by
  obtain ⟨tree', ht', plants, stored', identity⟩ := found.stored stands
  cases ht.symm.trans ht'
  have own := plants.coherent.indexed.eq_of_identity stored stored' (same.trans identity.symm)
  rw [own] at stored
  exact Option.some.inj (stored.symm.trans stored')

theorem Names.getElem? {nodes : List Adapter} {n : Nat} (h : s.Names w parts nodes)
    (hn : parts[n]? = some i) : ∃ a, nodes[n]? = some a ∧ s.Finds w i a := by
  obtain ⟨less, rfl⟩ := List.getElem?_eq_some_iff.1 hn
  have less' : n < nodes.length := h.length_eq ▸ less
  exact ⟨nodes[n], List.getElem?_eq_getElem less', List.forall₂_iff_get.1 h |>.2 n less less'⟩

end Stage

/-! ### What a table yields -/

/-- A bridge answers for the tree. -/
def Stage.Spanned (s : Stage) (w : World μ) (bridge : BridgeId) : Prop :=
  ∃ br, w.bridges[bridge]? = some br ∧ br.tree = s.tree

namespace Act.Brings

open Stage

variable (bears : s.Bears E R)

include bears

theorem yieldsRow (ready : s.Ready w) (root : s.Finds w (.table s.key) x)
    (there : row < s.grid.rows.length) :
    (Adapter.Table.row x row).Brings s E R (Grid.asked (.row s.key row))
      (fun found w' => ∃ a, found = some a ∧ s.Finds w' (.row s.key row) a) w := by
  refine yields bears ready root (fun _ same => Reading.hasRow_of_lt (same ▸ there)) fun ready' _ => ?_
  rw [root.tree ready.toStands, root.key ready.toStands, root.peer ready.toStands]
  exact rowNode bears ready' row

theorem yieldsColumn (ready : s.Ready w) (root : s.Finds w (.table s.key) x)
    (there : column < s.grid.headers.length) :
    (Adapter.Table.column x column).Brings s E R (Grid.asked (.column s.key column))
      (fun found w' => ∃ a, found = some a ∧ s.Finds w' (.column s.key column) a) w := by
  refine yields bears ready root (fun _ same => Reading.hasColumn_of_lt (same ▸ there))
    fun ready' _ => ?_
  rw [root.tree ready.toStands, root.key ready.toStands, root.peer ready.toStands]
  exact columnNode bears ready' column

theorem yieldsCell (ready : s.Ready w) (root : s.Finds w (.table s.key) x)
    (there : s.grid.Includes (.cell s.key row column)) :
    (Adapter.Table.cell x row column).Brings s E R (Grid.asked (.cell s.key row column))
      (fun found w' => ∃ a, found = some a ∧ s.Finds w' (.cell s.key row column) a) w := by
  refine yields bears ready root
    (fun _ same => Reading.hasCell_of_lt (same ▸ there.1) (same ▸ there.2)) fun ready' _ => ?_
  rw [root.tree ready.toStands, root.key ready.toStands, root.peer ready.toStands]
  exact cellNode bears ready' row column

/-- A bridge over the tree that is asked for the children of a node answers with the ids of the nodes
of its parts. -/
theorem queryChildren (ready : s.Ready w) (found : s.Finds w i a)
    (spans : s.Spanned w bridge) :
    (Bridge.query bridge a.key.toRaw .children).Brings s E R ((s.grid.parts i).flatMap Grid.asked)
      (fun value w' => ∃ nodes, value = .nodes (Adapter.ids nodes) ∧
        s.Names w' (s.grid.parts i) nodes) w := by
  obtain ⟨br, hb, here⟩ := spans
  obtain ⟨tree, ht, -, stored, -⟩ := found.stored ready.toStands
  have told := ready.tell (.span .query)
  have stored : tree.get? (.ofRaw a.key.toRaw) = some a := by
    rw [NodeKey.ofRaw_toRaw]
    exact stored
  have asks := Bridge.query_eq hb (here ▸ ht) stored .children
  have answers : (a.answer .children : Act μ _) =
      (fun nodes => .nodes (Adapter.ids nodes)) <$> a.children := by
    rw [map_eq_pure_bind]
    rfl
  have answered : (a.answer .children).Brings s E R ((s.grid.parts i).flatMap Grid.asked)
      (fun value w' => ∃ nodes, value = .nodes (Adapter.ids nodes) ∧
        s.Names w' (s.grid.parts i) nodes) (w.tell (.span .query)) := by
    rw [answers]
    exact (children bears told (found.congr rfl)).map bears fun _ _ named => ⟨_, rfl, named.1⟩
  have noted : (a.answer .children >>= fun value => do
      Act.tell (.queryAnswered a.key.toRaw a.role .children value)
      Pure.pure value).Brings s E R ((s.grid.parts i).flatMap Grid.asked)
      (fun value w' => ∃ nodes, value = .nodes (Adapter.ids nodes) ∧
        s.Names w' (s.grid.parts i) nodes) (w.tell (.span .query)) := by
    refine answered.bind_nil bears ?_
    rintro value w' ready' - ⟨nodes, rfl, named⟩
    have ready'' := ready'.tell (.queryAnswered a.key.toRaw a.role .children (.nodes (Adapter.ids nodes)))
    refine tell bears ready' (pure bears ready'' ⟨nodes, rfl, ?_⟩)
    exact List.Forall₂.imp (fun _ _ found => found.congr rfl) named
  exact of_eq bears noted ready.toStands asks rfl

end Act.Brings

/-! ### Places among the parts -/

namespace Grid

variable {g : Grid}

theorem parts_row (there : g.Includes (.row k row)) :
    g.parts (.row k row) = (List.range g.headers.length).map (.cell k row) := if_pos there

theorem parts_column (there : g.Includes (.column k column)) :
    g.parts (.column k column) = (List.range g.rows.length).map fun row => .cell k row column :=
  if_pos there

theorem row_of_parts (there : g.Includes (.row k row)) :
    (g.parts (.table k))[row]? = some (.row k row) := by
  have there : row < g.rows.length := there
  rw [parts, List.getElem?_append_left (by simpa using there)]
  simp [there]

theorem column_of_parts (there : g.Includes (.column k column)) :
    (g.parts (.table k))[g.rows.length + column]? = some (.column k column) := by
  have there : column < g.headers.length := there
  rw [parts, List.getElem?_append_right (by simp)]
  simp [there]

theorem cell_of_row (there : g.Includes (.cell k row column)) :
    (g.parts (.row k row))[column]? = some (.cell k row column) := by
  rw [parts_row there.1]
  simp [there.2]

theorem cell_of_column (there : g.Includes (.cell k row column)) :
    (g.parts (.column k column))[row]? = some (.cell k row column) := by
  rw [parts_column there.2]
  simp [there.1]

end Grid

/-! ### Ways -/

namespace Stage

variable (s) (bridge : BridgeId) (Q : Adapter → World μ → Prop) (w : World μ)

/-- Whoever has a table yield the node of a row or column, and then asks that one for its cells, comes
at some place among them to a node, of which something holds. -/
def ComesThrough (part : Act μ (Option Adapter)) (cells : Adapter → Act μ (List Adapter))
    (i : Identity) (place : Nat) : Prop :=
  part.Brings s s.Keeps (s.Calm s.Keeps) (Grid.asked i) (fun found w₁ => ∃ y, found = some y ∧
    ∀ w₂, s.Later w₁ w₂ → (cells y).Brings s s.Keeps (s.Calm s.Keeps)
      ((s.grid.parts i).flatMap Grid.asked) (fun cells w' => ∃ a, cells[place]? = some a ∧ Q a w') w₂) w

/-- Whoever asks a bridge over the tree for the children of a node is given their ids, of which
something holds. -/
def AsksChildren (i : Identity) (id : NodeId) (Q : List NodeId → World μ → Prop) : Prop :=
  s.Spanned w bridge → (Bridge.query bridge id .children).Brings s s.Keeps (s.Calm s.Keeps)
    ((s.grid.parts i).flatMap Grid.asked) (fun value w' => ∃ ids, value = .nodes ids ∧ Q ids w') w

/-- Whoever asks for the children of the table, and then for those of the one at some place, comes at
another place among these to the id of a node in the tree, of which something holds. -/
def ComesDown (id : NodeId) (place : Nat) (i : Identity) (place' : Nat) : Prop :=
  s.AsksChildren bridge w (.table s.key) id fun ids w₁ => ∃ id', ids[place]? = some id' ∧
    ∀ w₂, s.Later w₁ w₂ → s.AsksChildren bridge w₂ i id' fun ids w' =>
      ∃ a, ids[place']? = some a.key.toRaw ∧ s.Stores w' a ∧ Q a w'

end Stage

/-- A way to the node of a cell. -/
inductive Route where
  /-- The table yields it. -/
  | cell
  /-- The table yields the row, and it is one of the cells of the row. -/
  | row
  /-- The table yields the column, and it is one of the cells of the column. -/
  | column
  /-- The row is one of the children of the table, and it is one of the children of the row. -/
  | childOfRow
  /-- The column is one of the children of the table, and it is one of the children of the column. -/
  | childOfColumn
deriving DecidableEq, Repr

/-- Whoever goes a way from the node of a table comes to a node, of which something holds, if the nodes
that are asked for find room. Before each question the others may do what they like that leaves the
contents and the nodes of the table. -/
def Route.Leads (s : Stage) (x : Adapter) (bridge : BridgeId) (row column : Nat)
    (Q : Adapter → World μ → Prop) (w : World μ) : Route → Prop
  | .cell => (Adapter.Table.cell x row column).Brings s s.Keeps (s.Calm s.Keeps)
      (Grid.asked (.cell s.key row column)) (fun found w' => ∃ a, found = some a ∧ Q a w') w
  | .row => s.ComesThrough Q w (Adapter.Table.row x row) (Adapter.Row.cells · row)
      (.row s.key row) column
  | .column => s.ComesThrough Q w (Adapter.Table.column x column) (Adapter.Column.cells · column)
      (.column s.key column) row
  | .childOfRow => s.ComesDown bridge Q w x.key.toRaw row (.row s.key row) column
  | .childOfColumn =>
    s.ComesDown bridge Q w x.key.toRaw (s.grid.rows.length + column) (.column s.key column) row

namespace Route

variable {Q Q' : Adapter → World μ → Prop}

/-- What holds of the node may be put weaker. -/
theorem Leads.mono {route : Route} (h : route.Leads s x bridge row column Q w)
    (weaker : ∀ {a w'}, Q a w' → Q' a w') : route.Leads s x bridge row column Q' w := by
  cases route with
  | cell => exact Act.Brings.mono h fun _ _ ⟨a, e, holds⟩ => ⟨a, e, weaker holds⟩
  | row | column =>
    refine Act.Brings.mono h fun _ _ ⟨y, e, rest⟩ => ⟨y, e, fun w₂ later => ?_⟩
    exact (rest w₂ later).mono fun _ _ ⟨a, e, holds⟩ => ⟨a, e, weaker holds⟩
  | childOfRow | childOfColumn =>
    refine fun spans => (h spans).mono fun _ _ ⟨ids, e, id, hid, rest⟩ =>
      ⟨ids, e, id, hid, fun w₂ later spans => ?_⟩
    exact (rest w₂ later spans).mono fun _ _ ⟨ids, e, a, ha, stored, holds⟩ =>
      ⟨ids, e, a, ha, stored, weaker holds⟩

end Route

namespace Stage

variable {j : Identity} {n m : Nat}

/-- A row or column that is found or made leads to its cell. -/
theorem comesThrough {part : Act μ (Option Adapter)} {cells : Adapter → Act μ (List Adapter)}
    (first : part.Brings s s.Keeps (s.Calm s.Keeps) (Grid.asked i)
      (fun found w' => ∃ y, found = some y ∧ s.Finds w' i y) w)
    (rest : ∀ {w y}, s.Ready w → s.Finds w i y → (cells y).Brings s s.Keeps (s.Calm s.Keeps)
      ((s.grid.parts i).flatMap Grid.asked) (fun nodes w' => s.Names w' (s.grid.parts i) nodes) w)
    (hn : (s.grid.parts i)[n]? = some j) :
    s.ComesThrough (fun a w' => s.Later w w' ∧ s.Finds w' j a) w part cells i n := by
  refine first.mono ?_
  rintro found w₁ ready₁ since₁ ⟨y, rfl, here⟩
  have until₁ : s.Later w w₁ := ⟨ready₁, _, since₁⟩
  refine ⟨y, rfl, fun w₂ later => (rest later.1 (later.stays here)).mono ?_⟩
  rintro nodes w' ready' since named
  obtain ⟨a, ha, cell⟩ := named.getElem? hn
  exact ⟨a, ha, until₁.trans (later.trans ⟨ready', _, since⟩), cell⟩

/-- Among the ids of nodes of parts each part has the id of its node. -/
theorem asksChildren {Q : List NodeId → World μ → Prop} (ready : s.Ready w) (found : s.Finds w i a)
    (hn : (s.grid.parts i)[n]? = some j)
    (holds : ∀ {ids w' b}, s.Later w w' → s.Finds w' j b → ids[n]? = some b.key.toRaw → Q ids w') :
    s.AsksChildren bridge w i a.key.toRaw Q := by
  intro spans
  refine (Act.Brings.queryChildren (Keeps.bears s) ready found spans).mono ?_
  rintro value w' ready' since ⟨nodes, rfl, named⟩
  obtain ⟨b, hb, here⟩ := named.getElem? hn
  refine ⟨_, rfl, holds ⟨ready', _, since⟩ here ?_⟩
  rw [Adapter.ids, List.getElem?_map, hb]
  rfl

/-- The way down leads to the part of a part. -/
theorem comesDown {j' : Identity} (ready : s.Ready w) (root : s.Finds w (.table s.key) x)
    (hn : (s.grid.parts (.table s.key))[n]? = some j) (hm : (s.grid.parts j)[m]? = some j') :
    s.ComesDown bridge (fun a w' => s.Later w w' ∧ s.Finds w' j' a) w x.key.toRaw n j m := by
  refine asksChildren ready root hn fun until₁ here hid => ⟨_, hid, fun w₂ later => ?_⟩
  refine asksChildren later.1 (later.stays here) hm fun {ids w' a} rest cell ha => ?_
  obtain ⟨tree, ht, -, stored, -⟩ := cell.stored rest.1.toStands
  exact ⟨a, ha, ⟨cell.tableKey rest.1.toStands, tree, ht, stored⟩,
    until₁.trans (later.trans rest), cell⟩

end Stage

/-- Every way leads to the node of the cell, found or made. -/
theorem Route.leads (route : Route) (ready : s.Ready w) (root : s.Finds w (.table s.key) x)
    (there : s.grid.Includes (.cell s.key row column)) : route.Leads s x bridge row column
      (fun a w' => s.Later w w' ∧ s.Finds w' (.cell s.key row column) a) w := by
  have bears := Stage.Keeps.bears (μ := μ) s
  cases route with
  | cell =>
    refine (Act.Brings.yieldsCell bears ready root there).mono ?_
    rintro found w' ready' since ⟨a, rfl, here⟩
    exact ⟨a, rfl, ⟨ready', _, since⟩, here⟩
  | row =>
    exact Stage.comesThrough (.yieldsRow bears ready root there.1)
      (fun ready' here => .rowCells bears ready' here) (Grid.cell_of_row there)
  | column =>
    exact Stage.comesThrough (.yieldsColumn bears ready root there.2)
      (fun ready' here => .columnCells bears ready' here) (Grid.cell_of_column there)
  | childOfRow =>
    exact Stage.comesDown ready root (Grid.row_of_parts there.1) (Grid.cell_of_row there)
  | childOfColumn =>
    exact Stage.comesDown ready root (Grid.column_of_parts there.2) (Grid.cell_of_column there)

/-! ### Where the ways meet -/

/-- The node of a part, and after it that of the next one, up to so many. -/
def Stage.Lists (s : Stage) (w : World μ) (count : Nat) (part : Nat → Identity)
    (nodes : List Adapter) : Prop :=
  nodes.length = count ∧ s.Names w ((List.range count).map part) nodes

theorem Stage.Names.lists {count : Nat} {part : Nat → Identity} {nodes : List Adapter}
    (h : s.Names w ((List.range count).map part) nodes) : s.Lists w count part nodes := by
  refine ⟨?_, h⟩
  rw [← h.length_eq, List.length_map, List.length_range]

/-- All ways from the node of a table to a cell meet, whenever they are gone. -/
structure Stage.RoutesMeet (s : Stage) (m : Moment μ) (x : Adapter) : Prop where
  /-- Whoever goes a way, and any way later, comes to one node both times. -/
  meet : ∀ {w : World μ} {row column : Nat}, s.Later m.world w →
    s.grid.Includes (.cell s.key row column) → ∀ (first second : Route) (bridge bridge' : BridgeId),
    first.Leads s x bridge row column (fun a w' => s.Later w w' ∧
      s.Finds w' (.cell s.key row column) a ∧
      ∀ later, s.Later w' later → second.Leads s x bridge' row column (fun b _ => b = a) later) w
  /-- This node answers that its parent is the node of the row, which the table yields without making
  any -/
  parent : ∀ {w : World μ} {row column : Nat}, s.Later m.world w →
    s.grid.Includes (.cell s.key row column) → ∀ (route : Route) (bridge : BridgeId),
    route.Leads s x bridge row column (fun a w' => ∀ later, s.Later w' later →
      a.parentOf.Brings s s.Keeps (s.Calm s.Keeps) [] (fun parent w₁ => ∃ y, parent = some y ∧
        ∀ w₂, s.Later w₁ w₂ → (Adapter.Table.row x row).Brings s s.Keeps (s.Calm s.Keeps) []
          (fun found _ => found = some y) w₂) later) w
  /-- and which was the one that the table yielded before, if it did. -/
  row : ∀ {w : World μ} {row column : Nat}, s.Later m.world w →
    s.grid.Includes (.cell s.key row column) → ∀ (route : Route) (bridge : BridgeId),
    (Adapter.Table.row x row).Brings s s.Keeps (s.Calm s.Keeps) (Grid.asked (.row s.key row))
      (fun found w' => ∃ y, found = some y ∧ ∀ later, s.Later w' later →
        route.Leads s x bridge row column (fun a w₁ => ∀ w₂, s.Later w₁ w₂ →
          a.parentOf.Brings s s.Keeps (s.Calm s.Keeps) [] (fun parent _ => parent = some y) w₂) later) w
  /-- A part of the table that has a node has it from then on, and no other. -/
  only : ∀ {w later : World μ} {i : Identity} {a b : Adapter} {k : NodeKey} {tree : Tree},
    s.Later m.world w → s.Finds w i a → s.Later w later → later.trees[s.tree]? = some tree →
    s.Finds later i a ∧ (tree.get? k = some b → b.identity = i → b = a)
  /-- The rows of the table are its rows, in order, -/
  rows : ∀ {w : World μ}, s.Later m.world w → (Adapter.Table.rows x).Brings s s.Keeps (s.Calm s.Keeps)
    (((List.range s.grid.rows.length).map (.row s.key)).flatMap Grid.asked)
    (fun nodes w' => s.Lists w' s.grid.rows.length (.row s.key) nodes) w
  /-- its columns its columns, -/
  columns : ∀ {w : World μ}, s.Later m.world w →
    (Adapter.Table.columns x).Brings s s.Keeps (s.Calm s.Keeps)
      (((List.range s.grid.headers.length).map (.column s.key)).flatMap Grid.asked)
      (fun nodes w' => s.Lists w' s.grid.headers.length (.column s.key) nodes) w
  /-- the cells of a row one for each column, -/
  rowCells : ∀ {w : World μ} {y : Adapter} {row : Nat}, s.Later m.world w →
    s.grid.Includes (.row s.key row) → s.Finds w (.row s.key row) y →
    (Adapter.Row.cells y row).Brings s s.Keeps (s.Calm s.Keeps)
      ((s.grid.parts (.row s.key row)).flatMap Grid.asked)
      (fun nodes w' => s.Lists w' s.grid.headers.length (.cell s.key row) nodes) w
  /-- and the cells of a column one for each row. -/
  columnCells : ∀ {w : World μ} {y : Adapter} {column : Nat}, s.Later m.world w →
    s.grid.Includes (.column s.key column) → s.Finds w (.column s.key column) y →
    (Adapter.Column.cells y column).Brings s s.Keeps (s.Calm s.Keeps)
      ((s.grid.parts (.column s.key column)).flatMap Grid.asked)
      (fun nodes w' => s.Lists w' s.grid.rows.length (.cell s.key · column) nodes) w

/-- **All ways to a cell meet.** For a table whose contents stay and whose context answers, whoever asks
for a cell by row and column, through the row, through the column, or for the children of the table and
of its parts, in any order and whatever was made before, gets one node, whose parent is the node of the
row; and no part that has a node ever gets another one. -/
theorem routes_meet {m : Moment μ} (h : m.Lived) (set : s.Set m) (stored : s.Stores m.world x)
    (isTable : x.role = .table) : s.RoutesMeet m x := by
  have bears := Stage.Keeps.bears (μ := μ) s
  have root : s.Finds m.world (.table s.key) x := by
    have own : x.identity = .table s.key :=
      (Identity.eq_of_role_table isTable).trans (congrArg _ stored.1)
    exact own ▸ stored.finds (set.ready h).toStands
  refine ⟨fun {w row column} later there first second bridge bridge' => ?_,
    fun {w row column} later there route bridge => ?_, fun {w row column} later there route bridge => ?_,
    fun since found later ht => ?_, fun later => ?_, fun later => ?_, fun later there here => ?_,
    fun later there here => ?_⟩
  · refine (first.leads later.1 (later.stays root) there).mono ?_
    rintro a w' ⟨since, here⟩
    refine ⟨since, here, fun w₁ later' => ?_⟩
    refine (second.leads later'.1 (later'.stays (since.stays (later.stays root))) there).mono ?_
    rintro b w'' ⟨since', here'⟩
    exact here'.unique (since'.stays (later'.stays here))
  · refine (route.leads later.1 (later.stays root) there).mono ?_
    rintro a w' ⟨since, here⟩ w₁ later'
    have cell := later'.stays here
    obtain ⟨y, above⟩ := cell.has_parent rfl later'.1.toStands
    refine (Act.Brings.parentOf bears later'.1 above cell rfl).mono ?_
    rintro parent w₂ ready₂ since₂ rfl
    refine ⟨y, rfl, fun w₃ later'' => ?_⟩
    have until₃ := (later.trans (since.trans later')).trans (.trans ⟨ready₂, _, since₂⟩ later'')
    exact .tableRow bears later''.1 (until₃.stays root) (later''.stays (since₂.stays above)) there.1
  · refine (Act.Brings.yieldsRow bears later.1 (later.stays root) there.1).mono ?_
    rintro found w' ready' since ⟨y, rfl, above⟩
    have until' : s.Later w w' := ⟨ready', _, since⟩
    refine ⟨y, rfl, fun w₁ later' => ?_⟩
    refine (route.leads later'.1 (later'.stays (until'.stays (later.stays root))) there).mono ?_
    rintro a w₂ ⟨since₂, here⟩ w₃ later''
    have row := later''.stays (since₂.stays (later'.stays above))
    exact .parentOf bears later''.1 row (later''.stays here) rfl
  · have here := later.stays found
    exact ⟨here, here.only later.1.toStands ht⟩
  · exact (Act.Brings.tableRows bears later.1 (later.stays root)).mono fun _ _ named => named.lists
  · exact (Act.Brings.tableColumns bears later.1 (later.stays root)).mono fun _ _ named => named.lists
  · refine (Act.Brings.rowCells bears later.1 here).mono fun _ _ named => ?_
    rw [Grid.parts_row there] at named
    exact named.lists
  · refine (Act.Brings.columnCells bears later.1 here).mono fun _ _ named => ?_
    rw [Grid.parts_column there] at named
    exact named.lists

/-- The table yields its only cell, and every way leads to that. -/
theorem routes_meet_cell : ∃ (m : Moment Unit) (s : Stage) (a : Adapter) (w : World Unit), m.Lived ∧
    s.Set m ∧ s.Spanned m.world 0 ∧ s.Stores m.world .firstTable ∧ s.RoutesMeet m .firstTable ∧
    Adapter.Table.cell .firstTable 0 0 m.world = .done (.ok (some a)) w ∧
    a.identity = .cell s.key 0 0 ∧
    ∀ route : Route, route.Leads s .firstTable 0 0 0 (fun b _ => b = a) w := by
  obtain ⟨m, lived, e, set⟩ := Stage.set_attached (g := ⟨"", ["h"], [["x"]]⟩)
    (by simp [Grid.Rectangular]) () (.toolkit 0)
  have stored : (⟨0, Arena.keyAt 0 1, 0, 0, 0, ⟨"", ["h"], [["x"]]⟩⟩ : Stage).Stores m.world
      .firstTable := ⟨rfl, _, by rw [e]; rfl, rfl⟩
  have meet := routes_meet lived set stored rfl
  have ends : ((Adapter.Table.cell .firstTable 0 0 m.world).value?.bind id).isSome := by
    rw [e]
    decide +kernel
  obtain ⟨a, value⟩ := Option.isSome_iff_exists.1 ends
  obtain ⟨_, value, rfl⟩ := Option.bind_eq_some_iff.1 value
  have there : (⟨"", ["h"], [["x"]]⟩ : Grid).Includes (.cell (Arena.keyAt 0 1) 0 0) :=
    ⟨Nat.one_pos, Nat.one_pos⟩
  -- whichever way is gone later, the table has yielded the same
  have later : ∀ route : Route, ∃ w, Adapter.Table.cell .firstTable 0 0 m.world = .done (.ok (some a)) w ∧
      a.identity = .cell (Arena.keyAt 0 1) 0 0 ∧
      route.Leads ⟨0, Arena.keyAt 0 1, 0, 0, 0, ⟨"", ["h"], [["x"]]⟩⟩ .firstTable 0 0 0
        (fun b _ => b = a) w := by
    intro route
    have first := meet.meet (set.ready lived).later there .cell route 0 0
    obtain ⟨w, run, ready, _, same, -, here, second⟩ := first.of_value value
    cases same
    exact ⟨w, run, here.identity ready.toStands, second w ready.later⟩
  obtain ⟨w, run, identity, -⟩ := later .cell
  have spans : (⟨0, Arena.keyAt 0 1, 0, 0, 0, ⟨"", ["h"], [["x"]]⟩⟩ : Stage).Spanned m.world 0 :=
    ⟨⟨0, none⟩, by rw [e]; rfl, rfl⟩
  refine ⟨m, _, a, w, lived, set, spans, stored, meet, run, identity, fun route => ?_⟩
  obtain ⟨w', run', -, leads⟩ := later route
  cases run.symm.trans run'
  exact leads

end TableAccess
