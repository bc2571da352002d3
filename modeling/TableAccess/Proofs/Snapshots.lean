import TableAccess.Proofs.Latches

/-!
# Nodes written out as snapshots

All that one reading asks it asks in one hand-off, so the answers fit together. A table, a column or a
cell is written out from one reading, and what is written is what the table was at one moment, whatever
becomes of it before and after. For a row there are two readings: whether it is there, and how many
cells it has. The second one does not need the first, for it asks again whether the row is there; but
when it fails the row is written out all the same, without a cell.

## The model

* `View` — what a table answers at one moment; `View.Shows` — a node written out is as a view has it.
* `Inquiry.Sees` — all that an inquiry is answered is what a view has.
* `Identity.Glimpses` — each reading of a node sees one of some views, whatever it finds of its table.
* `World.Poses` — a bridge holds the tree of a node, and its table is among those that may be found.
* `nodes_written_out_are_snapshots` — the main statement.
-/

namespace TableAccess

variable {μ α : Type}

/-! ### Views -/

/-- What a table answers at one moment. -/
abbrev View := (q : Question) → q.Answer

namespace View

/-- What a node stands for is there. -/
def Includes (v : View) : Identity → Prop
  | .table _ => True
  | .row _ row => v (.isRow row) = true
  | .column _ column => v (.isColumn column) = true
  | .cell _ row column => v (.isRow row) = true ∧ v (.isColumn column) = true

/-- How many children a node has in the serialized tree. -/
def childCount (v : View) : Identity → Nat
  | .table _ => v .rowCount + v .columnCount
  | .row _ _ => v .columnCount
  | .column _ _ | .cell _ _ _ => 0

/-- A node written out, its children being given. -/
def written (v : View) (children : List NodeId) : Identity → TreeNode
  | .table _ => { TreeNode.ofRole .table with
      label := v .name
      rowCount := some (v .rowCount)
      columnCount := some (v .columnCount)
      children }
  | .row _ row => { TreeNode.ofRole .row with
      rowIndex := some row
      children }
  | .column _ column => { TreeNode.ofRole .genericContainer with
      columnIndex := some column
      label := v (.header column)
      children }
  | .cell _ row column => { TreeNode.ofRole .cell with
      rowIndex := some row
      columnIndex := some column
      label := v (.cellText row column)
      children }

/-- A node that was written out is as a view has it, but for the number of its children. -/
structure Shows (v : View) (i : Identity) (n : TreeNode) : Prop where
  /-- What it stands for is there. -/
  there : v.Includes i
  /-- So are its label, its indices and its counts. -/
  data : n = v.written n.children i

end View

/-- A node written out is a snapshot: one of some views has it so, its label, its indices, its counts
and the number of its children. -/
def TreeNode.IsSnapshot (n : TreeNode) (S : View → Prop) (i : Identity) : Prop :=
  ∃ v, S v ∧ v.Shows i n ∧ n.children.length = v.childCount i

/-! ### What one reading sees -/

namespace Inquiry

/-- All that an inquiry is answered is what a view has, until it ends or the table panics. -/
def Sees (v : View) (checksOn : Bool) (now : Thread) : Inquiry α → Table → Prop
  | .done _, _ | .fail _, _ => True
  | .ask q next, table =>
    match table.ask checksOn now q with
    | (.ok answer, after) => answer = v q ∧ (next answer).Sees v checksOn now after
    | (.error _, _) => True

variable {v : View} {checksOn : Bool} {now : Thread} {table : Table} {i : Inquiry α}

/-- It comes to what the view makes of it. -/
theorem Sees.eval (h : i.Sees v checksOn now table) {a : α}
    (run : (i.run checksOn now table).1 = .ok a) : i.eval v = .ok a := by
  induction i generalizing table with
  | done b => exact run
  | fail p => exact run
  | ask q next ih =>
    unfold Sees at h
    unfold Inquiry.run at run
    split at h
    · rename_i answer after asked
      obtain ⟨rfl, rest⟩ := h
      rw [asked] at run
      exact ih _ rest run
    · rename_i panic after asked
      rw [asked] at run
      cases run

end Inquiry

/-- An editable table that answers answers what its contents say. -/
theorem GridTable.eq_of_ask {g : GridTable} {checksOn : Bool} {now : Thread} {q : Question}
    {answer : q.Answer} (h : g.ask checksOn now q = .ok answer) : answer = g.answer q := by
  unfold ask at h
  split at h
  · exact (Except.ok.inj h).symm
  · cases opens : g.checkThread checksOn now with
    | ok =>
      rw [opens] at h
      exact (Except.ok.inj h).symm
    | error p =>
      rw [opens] at h
      cases h

/-- So it is seen as it is, and asking changes nothing. -/
theorem Inquiry.sees_grid (i : Inquiry α) (g : GridTable) (checksOn : Bool) (now : Thread) :
    i.Sees g.answer checksOn now (.grid g) ∧ (i.run checksOn now (.grid g)).2 = .grid g := by
  induction i with
  | done a => exact ⟨trivial, rfl⟩
  | fail p => exact ⟨trivial, rfl⟩
  | ask q next ih =>
    simp only [Sees, Inquiry.run, Table.ask]
    cases asked : g.ask checksOn now q with
    | ok answer => exact ⟨⟨g.eq_of_ask asked, (ih answer).1⟩, (ih answer).2⟩
    | error panic => exact ⟨trivial, rfl⟩

namespace Reading

variable {v : View} {row column : Nat} {read : Inquiry α} {a : α}

theorem eval_ofLive {read : Inquiry (Except Unavailable α)}
    (h : (ofLive read).eval v = .ok (.ok a)) : read.eval v = .ok (.ok a) := by
  change Inquiry.eval v (if v .isDisposed = true then _ else _) = _ at h
  split at h
  · cases h
  · exact h

/-- A reading that depends on an answer has a value only if the answer was yes. -/
theorem eval_ite {b : Bool} {other : Inquiry (Except Unavailable α)}
    (fails : ∀ a, other.eval v ≠ .ok (.ok a))
    (h : Inquiry.eval v (if b = true then ofInquiry read else other) = .ok (.ok a)) :
    b = true ∧ read.eval v = .ok a := by
  split at h
  · rename_i yes
    unfold ofInquiry at h
    rw [Inquiry.eval_bind] at h
    cases value : read.eval v with
    | ok b =>
      rw [value] at h
      cases h
      exact ⟨yes, rfl⟩
    | error p =>
      rw [value] at h
      cases h
  · exact absurd h (fails a)

theorem eval_ofRow (h : (ofRow row read).eval v = .ok (.ok a)) :
    v (.isRow row) = true ∧ read.eval v = .ok a :=
  eval_ite (fun _ value => by cases value) h

theorem eval_ofColumn (h : (ofColumn column read).eval v = .ok (.ok a)) :
    v (.isColumn column) = true ∧ read.eval v = .ok a :=
  eval_ite (fun _ value => by cases value) h

theorem eval_cell {text : CellText} (h : (cell row column).eval v = .ok (.ok text)) :
    (v (.isRow row) = true ∧ v (.isColumn column) = true) ∧
      text = ⟨v (.cellText row column), v (.header column)⟩ := by
  change Inquiry.eval v (if v (.isRow row) = true then _ else _) = _ at h
  split at h
  · rename_i inRow
    obtain ⟨inColumn, value⟩ := eval_ofColumn h
    cases value
    exact ⟨⟨inRow, inColumn⟩, rfl⟩
  · cases h

end Reading

/-- What is read of its table when a node is written out. -/
inductive Identity.ReadFor : {α : Type} → Identity → Inquiry (Except Unavailable α) → Prop where
  /-- The name and the counts of a table. -/
  | shape (k : NodeKey) : ReadFor (.table k) Reading.shape
  /-- Whether a row is there. -/
  | index (k : NodeKey) (row : Nat) : ReadFor (.row k row) (Reading.rowIndex row)
  /-- How many cells it has. -/
  | cells (k : NodeKey) (row : Nat) : ReadFor (.row k row) (Reading.columnsOfRow row)
  /-- The header of a column. -/
  | header (k : NodeKey) (column : Nat) : ReadFor (.column k column) (Reading.headerText column)
  /-- The text of a cell. -/
  | text (k : NodeKey) (row column : Nat) :
    ReadFor (.cell k row column) (Reading.cell row column)

/-- Each time a table is read for a node, on the thread of a context, the one reading sees one of some
views. What the table is like the next time is left open, as long as it is among those that may be
found. -/
structure Identity.Glimpses (i : Identity) (c : ContextId) (S : View → Prop) (T : Table → Prop) :
    Prop where
  /-- One reading sees one view. -/
  view : ∀ {α : Type} {read : Inquiry (Except Unavailable α)} {table : Table}, i.ReadFor read →
    T table → ∀ checksOn, ∃ v, S v ∧ (Reading.ofLive read).Sees v checksOn (.toolkit c) table
  /-- The table may be found as it is after that. -/
  after : ∀ {α : Type} {read : Inquiry (Except Unavailable α)} {table : Table}, i.ReadFor read →
    T table → ∀ checksOn, T ((Reading.ofLive read).run checksOn (.toolkit c) table).2

/-- So it is with editable tables, whatever becomes of them from one hand-off to the next. -/
theorem Identity.glimpses_grids (i : Identity) (c : ContextId) (G : GridTable → Prop) :
    i.Glimpses c (fun v => ∃ g, G g ∧ v = g.answer) fun table => ∃ g, G g ∧ table = .grid g where
  view := by
    rintro α read _ - ⟨g, possible, rfl⟩ checksOn
    exact ⟨g.answer, ⟨g, possible, rfl⟩, (Inquiry.sees_grid _ g checksOn _).1⟩
  after := by
    rintro α read _ - ⟨g, possible, rfl⟩ checksOn
    exact ⟨g, possible, (Inquiry.sees_grid _ g checksOn _).2⟩

/-! ### Worlds in which a node may be written out -/

/-- A bridge holds the tree of a node, and the table is among those that may be found, where it is
found on the thread of its context. -/
structure World.Poses (w : World μ) (a : Adapter) (t : TableId) (c : ContextId)
    (T : Table → Prop) : Prop where
  /-- The peer of the node refers to the table. -/
  peer : ∃ invalidated, w.peers[a.peer]? = some ⟨t, c, invalidated⟩
  /-- The tree is there. -/
  tree : (a.tree? w).isSome
  /-- The table is one of those, unless it was dropped. -/
  table : w.thread = .toolkit c → ∀ {table}, w.table? t = some table → T table

/-- Nothing takes a table away from a node, and its tree is there as long as it is written out. -/
def Conduct.posing (a : Adapter) (t : TableId) (c : ContextId) (T : Table → Prop) : Conduct μ :=
  .keeping (·.Poses a t c T)

section Posing

variable {a : Adapter} {t : TableId} {c : ContextId} {S : View → Prop} {T : Table → Prop}
  {w₀ w : World μ}

namespace World.Poses

theorem tell (h : w.Poses a t c T) (e : Event) : (w.tell e).Poses a t c T :=
  ⟨h.peer, h.tree, h.table⟩

theorem setTable (h : w.Poses a t c T) {table after : Table} (ht : w.table? t = some table)
    (known : T after) : (w.setTable t (some after)).Poses a t c T where
  peer := h.peer
  tree := h.tree
  table _ found' there := by
    rw [World.table?_setTable ht, if_pos rfl] at there
    cases there
    exact known

theorem invalidated (h : w.Poses a t c T) (p : PeerId) :
    World.Poses { w with peers := w.peers.modify p ({ · with invalidated := true }) } a t c T where
  peer := by
    obtain ⟨invalidated, hp⟩ := h.peer
    by_cases own : p = a.peer <;> simp [hp, own]
  tree := h.tree
  table := h.table

/-- A tree that gets a node is still there. -/
theorem add (h : w.Poses a t c T) {t' : TreeId} {tree : Tree} (ht : w.trees[t']? = some tree)
    (b : Adapter) : (w.modifyTree t' (·.add b)).Poses a t c T where
  peer := h.peer
  tree := by
    have held := h.tree
    unfold Adapter.tree? at held ⊢
    rw [World.getElem?_modifyTree ht]
    split
    · rename_i own
      rw [own, ht] at held
      cases alive : tree.alive <;> simp_all [Option.filter, Tree.add]
    · exact held
  table := h.table

end World.Poses

namespace Conduct.posing

theorem plain : (Conduct.posing a t c T : Conduct μ).Plain where
  found h := h
  tell _ _ along := along.leaves.tell _

/-- The thread has come on to another world in which the node poses. -/
theorem goesOn {w' : World μ} (along : (Conduct.posing a t c T).Along w₀ w)
    (poses : w'.Poses a t c T) (thread : w'.thread = w.thread := by rfl) :
    (Conduct.posing a t c T).Along w₀ w' :=
  ⟨thread.trans along.thread, poses⟩

/-- A table is read, and what the reading comes to one of the views makes of it. -/
theorem consult (glimpses : a.identity.Glimpses c S T) {read : Inquiry (Except Unavailable α)}
    (reads : a.identity.ReadFor read) (along : (Conduct.posing a t c T).Along w₀ w)
    (here : w.thread = .toolkit c) :
    (consult t (Reading.ofLive read)).KeepsFrom (.posing a t c T) w₀ w (fun _ => True)
      fun found => ∀ x, found = some (.ok x) → ∃ v, S v ∧ read.eval v = .ok (.ok x) := by
  unfold TableAccess.consult
  refine .get ?_
  split
  · exact .pure along nofun
  · rename_i table ht
    have possible := along.leaves.table here ht
    obtain ⟨v, seen, sees⟩ := glimpses.view reads possible w.checksOn
    have later := glimpses.after reads possible w.checksOn
    rw [← here] at sees later
    have value := @sees.eval
    generalize (Reading.ofLive read).run w.checksOn w.thread table = r at later value
    have along' : (Conduct.posing a t c T).Along w₀ (w.setTable t (some r.2)) :=
      goesOn along (along.leaves.setTable ht later)
    obtain ⟨result, after⟩ := r
    cases result with
    | error p => exact .modify (.throw along' trivial)
    | ok answer =>
      refine .modify (.pure along' fun x same => ⟨v, seen, ?_⟩)
      cases same
      exact Reading.eval_ofLive (value rfl)

theorem invalidate (along : (Conduct.posing a t c T).Along w₀ w) (p : PeerId) :
    (Peer.invalidate p).KeepsFrom (.posing a t c T) w₀ w (fun _ => True) fun _ => True := by
  unfold Peer.invalidate
  refine .get ?_
  split
  · exact .pure along trivial
  · split
    · exact .pure along trivial
    · exact .modify ⟨goesOn along ((along.leaves.invalidated p).tell _), trivial⟩

/-- So it is with whatever is read when the node is written out. -/
theorem tryRead (glimpses : a.identity.Glimpses c S T) {read : Inquiry (Except Unavailable α)}
    (reads : a.identity.ReadFor read) :
    (a.tryRead read : Act μ _).Keeps (.posing a t c T) (fun _ => True)
      fun result => ∀ x, result = .ok x → ∃ v, S v ∧ read.eval v = .ok (.ok x) := by
  refine ⟨fun {w₀ w} along => ?_⟩
  obtain ⟨latched, hp⟩ := along.leaves.peer
  cases latched with
  | true =>
    exact .of_done (Peer.query_of_latched (World.latched_of_invalidated hp) read) along nofun
  | false =>
    refine .of_eq ?_ (Peer.query_of_unlatched hp read)
    refine .bind (.handOff plain along (fun here => consult glimpses reads (plain.told along _) here)
      (fun found here => consult glimpses reads (plain.along found) here) fun _ _ => trivial)
      fun w₀ w outcome along answered => ?_
    by_cases stale : Peer.flatten outcome = .error .stalePeer
    · rw [Peer.settle_of_stale stale]
      exact .bind (invalidate along _) fun _ _ _ along _ => .pure along nofun
    · rw [Peer.settle_of_ne stale]
      refine .pure along fun x same => ?_
      cases outcome with
      | error u => cases same
      | ok found =>
        cases found with
        | none => cases same
        | some r => exact answered x (congrArg some same)

/-- The value of a reading. -/
theorem read (glimpses : a.identity.Glimpses c S T) {read : Inquiry (Except Unavailable α)}
    (reads : a.identity.ReadFor read) (question : String) :
    (a.read question read : Act μ _).Keeps (.posing a t c T) (fun _ => True)
      fun value => ∀ x, value = some x → ∃ v, S v ∧ read.eval v = .ok (.ok x) := by
  refine (tryRead glimpses reads).bind fun result known => ?_
  cases result with
  | ok x =>
    refine .pure fun x' same => known x' ?_
    cases same
    rfl
  | error u =>
    exact ⟨fun along => .tell (.pure (plain.told along _ fun _ => ⟨Room.overflow, trivial⟩) nofun)⟩

/-- A node is found or made, and the tree is still there. -/
theorem obtain (t' : TreeId) (i : Identity) (parent : Option NodeKey) (p : PeerId) :
    (TableAccess.obtain t' i parent p : Act μ _).Keeps (.posing a t c T) (fun _ => True)
      fun _ => True := by
  refine ⟨fun {w₀ w} along => ?_⟩
  unfold TableAccess.obtain getTree
  rw [bind_assoc]
  refine .get ?_
  cases ht : w.trees[t']? with
  | none => exact .throw along trivial
  | some tree =>
    simp only [pure_bind]
    split
    · exact .pure along trivial
    · split
      · exact .throw along trivial
      · exact .modify (.tell (.pure (plain.told (goesOn along (along.leaves.add ht _)) _) trivial))

theorem cellNode (t' : TreeId) (k : NodeKey) (p : PeerId) (row column : Nat) :
    (TableAccess.cellNode t' k p row column : Act μ _).Keeps (.posing a t c T) (fun _ => True)
      fun _ => True :=
  (obtain t' _ _ p).bind fun _ _ => obtain t' _ _ p

/-- There are as many nodes as asked for. -/
theorem eachNode (count : Nat) {make : Nat → Act μ Adapter}
    (makes : ∀ i, (make i).Keeps (.posing a t c T) (fun _ => True) fun _ => True) :
    (Act.each (List.range count) make).Keeps (.posing a t c T) (fun _ => True)
      fun nodes => nodes.length = count := by
  refine (Act.Keeps.each_length fun i _ => makes i).mono fun nodes length => ?_
  rw [length, List.length_range]

/-- The tree is there. -/
theorem hasTree {f : Bool → Act μ α} {Q : α → Prop} (along : (Conduct.posing a t c T).Along w₀ w)
    (rest : (f true).KeepsFrom (.posing a t c T) w₀ w (fun _ => True) Q) :
    (a.hasTree >>= f).KeepsFrom (.posing a t c T) w₀ w (fun _ => True) Q := by
  refine rest.of_eq ?_
  have held := along.leaves.tree
  unfold Adapter.hasTree
  simp only [Act.bind_apply, Act.get_apply, Progress.bind, held, Act.pure_apply]

theorem childrenFor (shape : Shape) :
    (Adapter.Table.childrenFor a shape : Act μ _).Keeps (.posing a t c T) (fun _ => True)
      fun nodes => nodes.length = shape.rows + shape.columns := by
  refine ⟨fun along => hasTree along ?_⟩
  rw [if_pos rfl]
  refine Act.Keeps.keeps ?_ along
  refine (Act.Keeps.makeRoom fun _ => trivial).bind fun _ _ => ?_
  refine (eachNode shape.rows fun _ => obtain _ _ _ _).bind fun rows allRows => ?_
  refine (eachNode shape.columns fun _ => obtain _ _ _ _).bind fun columns allColumns => .pure ?_
  rw [List.length_append, allRows, allColumns]

end Conduct.posing

/-! ### Nodes written out -/

/-- A row whose cells could not be counted is written out without any, and that is the last thing
that was told. -/
structure Adapter.Uncounted (a : Adapter) (S : View → Prop) (n : TreeNode) (w : World μ) : Prop where
  /-- It is a row. -/
  isRow : a.role = .row
  /-- When it was looked for it was there. -/
  seen : ∃ v, S v ∧ v.Shows a.identity n
  /-- It has no children. -/
  bare : n.children = []
  /-- It was told why. -/
  told : ∃ cause, w.log.head? =
    some (w.thread, .queryUnavailable a.role a.key.toRaw "column_count" cause)

namespace Conduct.posing

variable {k : NodeKey} {row column : Nat}

theorem buildTable (glimpses : a.identity.Glimpses c S T) (isTable : a.identity = .table k) :
    (a.buildTable : Act μ _).Keeps (.posing a t c T) (fun _ => True) fun written =>
      ∀ n, written = some n → n.IsSnapshot S a.identity := by
  have reads : a.identity.ReadFor Reading.shape := isTable ▸ .shape k
  unfold Adapter.buildTable
  refine (read glimpses reads "shape").bind fun value known => ?_
  cases value with
  | none => exact .pure nofun
  | some shape =>
    obtain ⟨v, seen, value⟩ := known shape rfl
    cases value
    refine (childrenFor _).bind fun nodes all => .pure fun n same => ⟨v, seen, ?_⟩
    cases same
    rw [Adapter.role, isTable]
    exact ⟨⟨trivial, rfl⟩, (List.length_map _).trans all⟩

theorem buildColumn (glimpses : a.identity.Glimpses c S T)
    (isColumn : a.identity = .column k column) :
    (a.buildColumn column : Act μ _).Keeps (.posing a t c T) (fun _ => True) fun written =>
      ∀ n, written = some n → n.IsSnapshot S a.identity := by
  have reads : a.identity.ReadFor (Reading.headerText column) := isColumn ▸ .header k column
  unfold Adapter.buildColumn
  rw [← bind_assoc]
  refine Act.Keeps.bind (read glimpses reads "build_accessible_node") fun value known => ?_
  cases value with
  | none => exact .pure nofun
  | some header =>
    obtain ⟨v, seen, value⟩ := known header rfl
    obtain ⟨there, value⟩ := Reading.eval_ofColumn value
    cases value
    refine .pure fun n same => ⟨v, seen, ?_⟩
    cases same
    rw [Adapter.role, isColumn]
    exact ⟨⟨there, rfl⟩, rfl⟩

theorem buildCell (glimpses : a.identity.Glimpses c S T)
    (isCell : a.identity = .cell k row column) :
    (a.buildCell row column : Act μ _).Keeps (.posing a t c T) (fun _ => True) fun written =>
      ∀ n, written = some n → n.IsSnapshot S a.identity := by
  have reads : a.identity.ReadFor (Reading.cell row column) := isCell ▸ .text k row column
  unfold Adapter.buildCell
  refine Act.Keeps.bind (read glimpses reads "build_accessible_node") fun value known => ?_
  cases value with
  | none => exact .pure nofun
  | some snapshot =>
    obtain ⟨v, seen, value⟩ := known snapshot rfl
    obtain ⟨there, rfl⟩ := Reading.eval_cell value
    refine .pure fun n same => ⟨v, seen, ?_⟩
    cases same
    rw [Adapter.role, isCell]
    exact ⟨⟨there, rfl⟩, rfl⟩

/-- With as many cells as there are columns a row is a snapshot. -/
theorem ofCells {cells : Act μ (List Adapter)} (isRow : a.identity = .row k row) {v : View}
    (seen : S v) (there : v (.isRow row) = true)
    (counts : cells.Keeps (.posing a t c T) (fun _ => True) fun nodes =>
      nodes.length = v .columnCount) :
    (do
      let cells ← cells
      pure (some { TreeNode.ofRole a.role.toTreeRole with
        rowIndex := some row
        children := Adapter.ids cells })).Keeps (.posing a t c T) (fun _ => True) fun written =>
      ∀ n, written = some n → n.IsSnapshot S a.identity := by
  refine counts.bind fun nodes all => .pure fun n same => ⟨v, seen, ?_⟩
  cases same
  rw [Adapter.role, isRow]
  exact ⟨⟨there, rfl⟩, (List.length_map _).trans all⟩

/-- The cells of a row that was found are counted once more on the row that is there then; if that
fails, for whatever cause, the row has no cells. -/
theorem cellsOfRow (glimpses : a.identity.Glimpses c S T) (isRow : a.identity = .row k row)
    {v : View} (seen : S v) (there : v (.isRow row) = true)
    (along : (Conduct.posing a t c T).Along w₀ w) :
    ((do
        let cells ← Adapter.Row.cells a row
        pure (some { TreeNode.ofRole a.role.toTreeRole with
          rowIndex := some row
          children := Adapter.ids cells }) : Act μ _) w).Keeps (.posing a t c T)
      (fun w' result => ∀ n, result = .ok (some n) →
        n.IsSnapshot S a.identity ∨ a.Uncounted S n w') w₀ := by
  have reads : a.identity.ReadFor (Reading.columnsOfRow row) := isRow ▸ .cells k row
  unfold Adapter.Row.cells Adapter.Row.columnCount Adapter.read
  simp only [bind_assoc]
  rw [Act.bind_apply]
  refine Progress.Keeps.bind ((tryRead glimpses reads).keeps along).progress
    (fun w₀ w result along known => ?_) nofun
  cases result with
  | error u =>
    have told := plain.told along (.queryUnavailable a.role a.key.toRaw "column_count" u)
      fun _ => ⟨Room.overflow, trivial⟩
    have role : a.role = .row := congrArg Identity.role isRow
    refine ⟨told, ?_⟩
    rintro n ⟨⟩
    refine .inr ⟨role, ⟨v, seen, ?_⟩, rfl, u, rfl⟩
    rw [role, isRow]
    exact ⟨there, rfl⟩
  | ok count =>
    obtain ⟨v, seen, value⟩ := known count rfl
    obtain ⟨there, value⟩ := Reading.eval_ofRow value
    cases value
    have makes : (do
        Act.makeRoom .node (v .columnCount)
        Act.each (List.range (v .columnCount)) (TableAccess.cellNode a.tree a.tableKey a.peer row) :
          Act μ _).Keeps (.posing a t c T) (fun _ => True)
            fun cells => cells.length = v .columnCount :=
      (Act.Keeps.makeRoom fun _ => trivial).bind fun _ _ =>
        eachNode _ fun column => cellNode _ _ _ row column
    simp only [Adapter.degrade, pure_bind]
    refine (hasTree along ((ofCells isRow seen there makes).keeps along)).progress.mono ?_
    rintro w' result holds n rfl
    exact .inl (holds n rfl)

theorem buildRow (glimpses : a.identity.Glimpses c S T) (isRow : a.identity = .row k row)
    (along : (Conduct.posing a t c T).Along w₀ w) :
    (a.buildRow row w).Keeps (.posing a t c T) (fun w' result => ∀ n, result = .ok (some n) →
      n.IsSnapshot S a.identity ∨ a.Uncounted S n w') w₀ := by
  have reads : a.identity.ReadFor (Reading.rowIndex row) := isRow ▸ .index k row
  have index := read (μ := μ) (t := t) glimpses reads "row_index_in_table"
  refine Progress.Keeps.bind (index.keeps along).progress (fun w₀ w value along known => ?_) nofun
  cases value with
  | none => exact ⟨along, nofun⟩
  | some first =>
    obtain ⟨v, seen, value⟩ := known first rfl
    exact cellsOfRow glimpses isRow seen (Reading.eval_ofRow value).1 along

end Conduct.posing

/-- **A node that is written out is a snapshot of its table**, whatever the table is like from one
hand-off to the next and whichever hand-offs fail, as long as a bridge holds the tree: one of the views
that are seen has the node so, what it stands for, its label, its indices, its counts and the number of
its children. The only other thing that is written out is a row without cells, when its cells could
not be counted; that the row was there one of the views has. -/
theorem nodes_written_out_are_snapshots (glimpses : a.identity.Glimpses c S T)
    (poses : w.Poses a t c T) :
    (a.build w).Keeps (.posing a t c T) (fun w' result => ∀ n, result = .ok (some n) →
      n.IsSnapshot S a.identity ∨ a.Uncounted S n w') w := by
  have along : (Conduct.posing a t c T).Along w w := Conduct.posing.plain.along poses
  have whole : ∀ {act : Act μ (Option TreeNode)}, act.Keeps (.posing a t c T) (fun _ => True)
      (fun written => ∀ n, written = some n → n.IsSnapshot S a.identity) →
      (act w).Keeps (.posing a t c T) (fun w' result => ∀ n, result = .ok (some n) →
        n.IsSnapshot S a.identity ∨ a.Uncounted S n w') w := by
    intro act keeps
    refine (keeps.keeps along).progress.mono fun _ result holds n same => .inl ?_
    cases same
    exact holds n rfl
  unfold Adapter.build
  cases identity : a.identity with
  | table k =>
    have keeps := whole (Conduct.posing.buildTable glimpses identity)
    rwa [identity] at keeps
  | row k row =>
    have keeps := Conduct.posing.buildRow glimpses identity along
    rwa [identity] at keeps
  | column k column =>
    have keeps := whole (Conduct.posing.buildColumn glimpses identity)
    rwa [identity] at keeps
  | cell k row column =>
    have keeps := whole (Conduct.posing.buildCell glimpses identity)
    rwa [identity] at keeps

end Posing

/-- A table with a row and a column is written out as a snapshot. -/
theorem nodes_written_out_are_snapshots_table : ∃ (m : Moment Unit) (n : TreeNode) (w : World Unit),
    m.Lived ∧ Adapter.firstTable.build m.world = .done (.ok (some n)) w ∧ n.children.length = 2 ∧
      n.IsSnapshot (fun v => ∃ g : GridTable, g.grid = ⟨"", [""], [[""]]⟩ ∧ v = g.answer)
        Adapter.firstTable.identity := by
  obtain ⟨m, lived, e, -⟩ := Moment.lived_of_cell () (.toolkit 0)
  obtain ⟨n, w, run, two⟩ : ∃ n w, Adapter.firstTable.build m.world = .done (.ok (some n)) w ∧
      n.children.length = 2 := by
    rw [e]
    exact ⟨_, _, rfl, rfl⟩
  have keeps := nodes_written_out_are_snapshots (t := 0) (c := 0) (w := m.world)
    (Adapter.firstTable.identity.glimpses_grids 0 fun g => g.grid = ⟨"", [""], [[""]]⟩)
    ⟨⟨false, by rw [e]; rfl⟩, by rw [e]; rfl, fun _ table ht => ⟨.ofGrid ⟨"", [""], [[""]]⟩, rfl, by
      rw [e] at ht
      exact (Option.some.inj ht).symm⟩⟩
  rw [run] at keeps
  exact ⟨m, n, w, lived, run, two,
    (keeps.2 n rfl).resolve_right fun row => absurd row.isRow (by decide)⟩

/-! ### A row that goes while it is written out -/

/-- A table of one row and one column, -/
def GridTable.oneRow : GridTable := .ofGrid ⟨"", [""], [[""]]⟩

/-- and one of a column alone. -/
def GridTable.noRow : GridTable := .ofGrid ⟨"", [""], []⟩

/-- A table that is the one until it was asked two questions, and the other from then on. -/
def Responder.shrinking (past : List Call) : Responder :=
  ⟨past, fun past call =>
    .ok ((if past.length < 2 then GridTable.oneRow else .noRow).answer call.question)⟩

/-- What it answers at one moment or another. -/
def View.OfShrinking (v : View) : Prop := v = GridTable.oneRow.answer ∨ v = GridTable.noRow.answer

/-- Once it was asked two questions it is seen without its row. -/
theorem Inquiry.sees_shrunk (i : Inquiry α) {past : List Call} (shrunk : 2 ≤ past.length)
    (checksOn : Bool) (now : Thread) :
    i.Sees GridTable.noRow.answer checksOn now (.responder (.shrinking past)) ∧
      ∃ later, (i.run checksOn now (.responder (.shrinking past))).2 = .responder (.shrinking later) ∧
        2 ≤ later.length := by
  induction i generalizing past with
  | done a => exact ⟨trivial, past, rfl, shrunk⟩
  | fail p => exact ⟨trivial, past, rfl, shrunk⟩
  | ask q next ih =>
    have asked : Table.ask (.responder (.shrinking past)) checksOn now q =
        (.ok (GridTable.noRow.answer q), .responder (.shrinking (⟨now, q⟩ :: past))) := by
      show (Except.ok (GridTable.answer (if past.length < 2 then _ else _) q), _) = _
      rw [if_neg (Nat.not_lt.2 shrunk)]
      rfl
    simp only [Sees, Inquiry.run, asked]
    have longer : 2 ≤ (⟨now, q⟩ :: past : List Call).length := Nat.le_succ_of_le shrunk
    have rest := ih (GridTable.noRow.answer q) longer
    exact ⟨⟨trivial, rest.1⟩, rest.2⟩

/-- One reading sees it with its row, or one without. -/
theorem Adapter.glimpses_shrinking : Adapter.firstRow.identity.Glimpses 0 View.OfShrinking fun table =>
    ∃ past, table = .responder (.shrinking past) ∧ (past = [] ∨ 2 ≤ past.length) where
  view := by
    rintro α read _ reads ⟨past, rfl, rfl | shrunk⟩ checksOn
    · refine ⟨_, .inl rfl, ?_⟩
      cases reads with
      | index => exact ⟨rfl, rfl, trivial⟩
      | cells => exact ⟨rfl, rfl, rfl, trivial⟩
    · exact ⟨_, .inr rfl, (Inquiry.sees_shrunk _ shrunk checksOn _).1⟩
  after := by
    rintro α read _ reads ⟨past, rfl, rfl | shrunk⟩ checksOn
    · cases reads with
      | index => exact ⟨_, rfl, .inr (Nat.le_refl 2)⟩
      | cells => exact ⟨_, rfl, .inr (Nat.le_succ 2)⟩
    · obtain ⟨later, same, still⟩ := (Inquiry.sees_shrunk (Reading.ofLive read) shrunk checksOn
        (.toolkit 0)).2
      exact ⟨later, same, .inr still⟩

/-- The row was there when it was looked for, and not any more when its cells were counted: it is
written out without cells, and it never was like that. -/
theorem row_without_cells_is_no_snapshot : ∃ (m : Moment Unit) (T : Table → Prop) (n : TreeNode)
    (w : World Unit), m.Lived ∧ Adapter.firstRow.identity.Glimpses 0 View.OfShrinking T ∧
      m.world.Poses .firstRow 0 0 T ∧ Adapter.firstRow.build m.world = .done (.ok (some n)) w ∧
      ¬n.IsSnapshot View.OfShrinking Adapter.firstRow.identity := by
  obtain ⟨m, lived, e, -⟩ := Moment.lived_of_part (.responder (.shrinking [])) Context.spawn_default
    (.responder _) () (.toolkit 0) (.inl rfl)
  obtain ⟨n, w, run, none⟩ : ∃ n w, Adapter.firstRow.build m.world = .done (.ok (some n)) w ∧
      n.children.length = 0 := by
    rw [e]
    exact ⟨_, _, rfl, rfl⟩
  refine ⟨m, _, n, w, lived, Adapter.glimpses_shrinking,
    ⟨⟨false, by rw [e]; rfl⟩, by rw [e]; rfl, fun _ table ht => ⟨[], ?_, .inl rfl⟩⟩, run, ?_⟩
  · rw [e] at ht
    exact (Option.some.inj ht).symm
  · rintro ⟨v, rfl | rfl, shows, counted⟩
    · exact absurd (none.symm.trans counted) (by decide)
    · have there : GridTable.noRow.answer (.isRow 0) = true := shows.there
      exact absurd there (by decide)

end TableAccess
