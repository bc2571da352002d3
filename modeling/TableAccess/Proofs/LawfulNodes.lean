import TableAccess.Proofs.Lawful

/-!
# Nodes come and go by deeds

Nodes are found or made, read, written out and drawn by deeds, and every node that is yielded was
made. The same holds of all that a tree or a bridge is asked for.

## The model

* `obtain_meets`, `cellNode_meets`, `attachTable_meets` — nodes found or made.
* `children_meets`, `answer_lawful`, `build_lawful` — what a node answers.
* `Bridge.query_lawful`, `Bridge.treeUpdate_lawful`, `outlineAll_lawful` — what a bridge or a tree
  answers.
-/

namespace TableAccess

variable {μ α : Type} {m m' : Moment μ} {t : TreeId} {a through : Adapter} {i : Identity}
  {parent : NodeKey}

/-! ### Readings that say nothing about the table -/

namespace Reading

/-- The reading itself never says that the table is gone. -/
def Honest (read : Inquiry (Except Unavailable α)) : Prop :=
  read.All (· ≠ .error .stalePeer)

theorem honest_ofInquiry (i : Inquiry α) : Honest (ofInquiry i) :=
  i.all_true.bind fun _ _ e => by cases e

theorem honest_ofColumn (column : Nat) (read : Inquiry α) : Honest (ofColumn column read) := by
  intro there
  cases there with
  | true => exact read.all_true.bind fun _ _ e => by cases e
  | false => exact fun _ e => by cases e

theorem honest_ofRow (row : Nat) (read : Inquiry α) : Honest (ofRow row read) := by
  intro there
  cases there with
  | true => exact read.all_true.bind fun _ _ e => by cases e
  | false => exact fun _ e => by cases e

theorem honest_cell (row column : Nat) : Honest (cell row column) := by
  intro there
  cases there with
  | true => exact honest_ofColumn column _
  | false => exact fun _ e => by cases e

end Reading

/-! ### Nodes found or made -/

/-- Looking at a tree changes nothing. -/
theorem getTree_meets {f : Tree → Act μ α} {Q : Moment μ → α → Prop}
    (h : ∀ tree, m.world.trees[t]? = some tree → (f tree).Meets m Q) :
    (getTree t >>= f).Meets m Q := by
  refine .bind ?_
  unfold getTree
  refine .get ?_
  split
  · exact .pure (h _ ‹_›)
  · exact .throw _

/-- Nodes were made. -/
def Moment.Made (m : Moment μ) (nodes : List Adapter) : Prop := ∀ a ∈ nodes, .made a ∈ m.past

/-- A node stands for an identity in a tree. -/
def Moment.Stands (m : Moment μ) (t : TreeId) (i : Identity) (a : Adapter) : Prop :=
  ∃ tree, m.world.trees[t]? = some tree ∧ tree.find? i = some a

theorem Moment.Stands.identity (h : m.Lived) (stands : m.Stands t i a) : a.identity = i := by
  obtain ⟨tree, ht, found⟩ := stands
  exact ((h.coherent ht).indexed.find?_eq_some_iff.1 found).2

/-- The node of a row, column or cell is found, or made by a deed. -/
theorem obtain_meets (h : m.Lived) (known : .made through ∈ m.past)
    (same : i.tableKey = through.identity.tableKey)
    (isParent : ∀ tree, m.world.trees[through.tree]? = some tree → tree.IsParent i parent) :
    (obtain through.tree i (some parent) through.peer).Meets m fun m' a =>
      .made a ∈ m'.past ∧ m'.Stands through.tree i a := by
  unfold obtain
  apply getTree_meets
  intro tree ht
  cases found : tree.find? i with
  | some a =>
    have stored := ((h.coherent ht).indexed.find?_eq_some_iff.1 found).1
    exact .pure ⟨h.keyed.stored ht stored, tree, ht, found⟩
  | none =>
    simp only
    cases next : tree.nodes.nextKey? with
    | none => exact .throw _
    | some k =>
      have step := Moment.Step.trees (.make ht found next known rfl same (isParent tree ht))
      refine .bind (.modify step.goes rfl rfl (.bind (.tell _ (.pure ⟨by simp, ?_⟩))))
      refine ⟨tree.add ⟨k, i, some parent, through.peer, through.tree⟩, ?_, ?_⟩
      · simp [World.tell, ht]
      · rw [(h.coherent ht).indexed.find?_add next found]
        simp

variable {table : NodeKey}

/-- The node of a row of the table of another node. -/
theorem rowNode_meets (h : m.Lived) (known : .made through ∈ m.past) (row : Nat) :
    (rowNode through.tree through.identity.tableKey through.peer row).Meets m fun m' a =>
      .made a ∈ m'.past ∧ m'.Stands through.tree (.row through.identity.tableKey row) a :=
  obtain_meets h known rfl fun _ _ => .row _ _

/-- The node of a column of the table of another node. -/
theorem columnNode_meets (h : m.Lived) (known : .made through ∈ m.past) (column : Nat) :
    (columnNode through.tree through.identity.tableKey through.peer column).Meets m fun m' a =>
      .made a ∈ m'.past ∧ m'.Stands through.tree (.column through.identity.tableKey column) a :=
  obtain_meets h known rfl fun _ _ => .column _ _

/-- The node of a cell of the table of another node, with that of its row. -/
theorem cellNode_meets (h : m.Lived) (known : .made through ∈ m.past) (row column : Nat) :
    (cellNode through.tree through.identity.tableKey through.peer row column).Meets m fun m' a =>
      .made a ∈ m'.past ∧ m'.Stands through.tree (.cell through.identity.tableKey row column) a := by
  unfold cellNode
  refine (rowNode_meets h known row).next ?_
  rintro m₁ parent goes _ ⟨_, tree, ht, found⟩
  refine obtain_meets (h.goes goes) (goes.remembers known) rfl ?_
  intro tree' ht'
  rw [ht] at ht'
  cases ht'
  exact .cell found column

/-- The node of a table is found, or made by a deed. -/
theorem attachTable_meets {table : TableId} (h : m.Lived) (there : table < m.world.tables.length) :
    (attachTable t table).Meets m fun m' a => .made a ∈ m'.past ∧ a.role = .table ∧
      ∃ tree, m'.world.trees[t]? = some tree ∧ tree.get? a.key = some a := by
  unfold attachTable
  refine getTree_meets fun tree ht => .get ?_
  have indexed := (h.coherent ht).indexed
  cases found : tree.tables.find? (standsFor m.world table) with
  | some a =>
    have mem := List.mem_filter.1 (List.mem_of_find?_eq_some found)
    obtain ⟨⟨k, a'⟩, listed, rfl⟩ := List.mem_map.1 mem.1
    have stored : tree.get? k = some a' := indexed.arena.mem_toList.1 listed
    have own := indexed.key stored
    refine .pure ⟨h.keyed.stored ht stored, by simpa [Adapter.role] using mem.2, tree, ht, ?_⟩
    exact own ▸ stored
  | none =>
    simp only
    cases next : tree.nodes.nextKey? with
    | none => exact .throw _
    | some k =>
      have step := Moment.Step.trees (.attach ht there found next)
      refine .modify_modify (.bind (.modify step.goes rfl rfl (.bind (.tell _ (.pure ?_)))))
      refine ⟨by simp, rfl, tree.add ⟨k, .table k, none, m.world.peers.length, t⟩, ?_, ?_⟩
      · simp [World.tell, ht]
      · rw [indexed.get?_add next]
        simp

/-! ### Tables taken out -/

theorem detachTable_lawful (table : NodeKey) : (detachTable t table : Act μ Nat).Lawful m := by
  unfold detachTable
  apply getTree_meets
  intro tree ht
  have step := Moment.Step.trees (.detach ht table)
  refine .bind (.modify step.goes rfl rfl ?_)
  split
  · exact .told fun _ _ _ => .pure trivial
  · exact .pure trivial

theorem prune_lawful (h : m.Lived) : (prune t : Act μ Nat).Lawful m := by
  unfold prune
  apply getTree_meets
  intro tree _
  refine Act.Meets.next (Act.Meets.each (R := fun _ _ => True) (fun _ _ => trivial)
    fun m' a goes _ _ => ?_) fun _ _ _ _ _ => .pure trivial
  unfold pruneTable
  refine (Peer.isValid_lawful (h.goes goes)).next ?_
  intro m'' valid _ _ _
  split
  · exact .pure trivial
  · exact detachTable_lawful a.key

/-! ### What a node answers -/

namespace Adapter

variable {reading : Inquiry (Except Unavailable α)}

theorem tryRead_lawful (h : m.Lived) (honest : Reading.Honest reading) :
    (a.tryRead reading).Lawful m :=
  Peer.query_lawful h honest

theorem degrade_lawful (question : String) (result : Except Unavailable α) :
    (a.degrade question result : Act μ _).Lawful m := by
  unfold degrade
  split
  · exact .pure trivial
  · exact .told fun _ _ _ => .pure trivial

theorem read_lawful (h : m.Lived) (question : String) (honest : Reading.Honest reading) :
    (a.read question reading).Lawful m :=
  (tryRead_lawful h honest).next fun _ result _ _ _ => degrade_lawful question result

theorem hasTree_lawful : (a.hasTree : Act μ Bool).Lawful m := .get (.pure trivial)

theorem parentNode_lawful : (a.parentNode : Act μ _).Lawful m := by
  unfold parentNode
  split
  · exact .pure trivial
  · apply Peer.isInvalidated_lawful.next
    intro _ _ _ _ _
    split
    · exact .pure trivial
    · exact .get (.pure trivial)

theorem parentOf_lawful : (a.parentOf : Act μ _).Lawful m := by
  unfold parentOf
  split
  · exact .pure trivial
  · exact parentNode_lawful

namespace Table

theorem shape_lawful (h : m.Lived) : (shape a).Lawful m :=
  (tryRead_lawful h (Reading.honest_ofInquiry _)).next fun _ r _ _ _ => degrade_lawful _ r

theorem columnCount_lawful (h : m.Lived) : (columnCount a).Lawful m :=
  read_lawful h _ (Reading.honest_ofInquiry _)

theorem rowCount_lawful (h : m.Lived) : (rowCount a).Lawful m :=
  read_lawful h _ (Reading.honest_ofInquiry _)

end Table

theorem Row.index_lawful (h : m.Lived) (row : Nat) : (Row.index a row).Lawful m :=
  (tryRead_lawful h (Reading.honest_ofRow row _)).next fun _ r _ _ _ => degrade_lawful _ r

theorem Row.columnCount_lawful (h : m.Lived) (row : Nat) : (Row.columnCount a row).Lawful m :=
  read_lawful h _ (Reading.honest_ofRow row _)

theorem Column.number_lawful (h : m.Lived) (column : Nat) : (Column.number a column).Lawful m :=
  (tryRead_lawful h (Reading.honest_ofColumn column _)).next fun _ r _ _ _ => degrade_lawful _ r

theorem Column.header_lawful (h : m.Lived) (column : Nat) : (Column.header a column).Lawful m :=
  (tryRead_lawful h (Reading.honest_ofColumn column _)).next fun _ r _ _ _ =>
    (degrade_lawful _ r).next fun _ _ _ _ _ => .pure trivial

theorem Column.rowCount_lawful (h : m.Lived) (column : Nat) :
    (Column.rowCount a column).Lawful m :=
  read_lawful h _ (Reading.honest_ofColumn column _)

theorem Cell.snapshot_lawful (h : m.Lived) (question : String) (row column : Nat) :
    (Cell.snapshot a question row column).Lawful m :=
  (tryRead_lawful h (Reading.honest_cell row column)).next fun _ r _ _ _ => degrade_lawful _ r

/-! ### Nodes that a node yields -/

section Listed

variable {R : Moment μ → Adapter → Prop} {make : Nat → Act μ Adapter}
  (stays : ∀ {m m' : Moment μ} {b}, m.Goes m' → R m b → R m' b)

include stays

/-- Nodes that are found or made once their number is known, while a bridge holds the tree. What holds
of each of them, and stays so, holds of all of them. -/
theorem counted_all {item : Room.Item} {count : Act μ (Option Nat)} (counts : count.Lawful m)
    (h : ∀ m' n, m.Goes m' → (make n).Meets m' R) :
    Act.Meets (do
      match ← count, ← a.hasTree with
      | some n, true => do
        Act.makeRoom item n
        Act.each (List.range n) make
      | _, _ => pure []) m fun m' nodes => ∀ b ∈ nodes, R m' b := by
  apply counts.next
  intro m₁ n goes₁ _ _
  apply hasTree_lawful.next
  intro m₂ held goes₂ _ _
  split
  · refine Act.Meets.bind (.makeRoom (.each stays ?_))
    intro m' n goes _ _
    exact h m' n (goes₁.trans (goes₂.trans goes))
  · exact .pure fun _ mem => by cases mem

/-- So it is for the rows and columns of a table. -/
theorem Table.childrenFor_all (shape : Shape)
    (rows : ∀ m' row, m.Goes m' → (rowNode a.tree a.key a.peer row).Meets m' R)
    (columns : ∀ m' column, m.Goes m' → (columnNode a.tree a.key a.peer column).Meets m' R) :
    (Table.childrenFor a shape).Meets m fun m' nodes => ∀ b ∈ nodes, R m' b := by
  unfold Table.childrenFor
  apply hasTree_lawful.next
  intro m₁ _ goes₁ _ _
  split
  · refine .bind (.makeRoom ?_)
    refine Act.Meets.next (Act.Meets.each (R := R) stays fun m' row goes _ _ => ?_)
      fun m₂ rows goes₂ _ rows_all => ?_
    · exact rows m' row (goes₁.trans goes)
    refine Act.Meets.next (Act.Meets.each (R := R) stays fun m' column goes _ _ => ?_)
      fun m₃ columns goes₃ _ columns_all => ?_
    · exact columns m' column (goes₁.trans (goes₂.trans goes))
    refine .pure fun b mem => ?_
    rcases List.mem_append.1 mem with row | column
    · exact stays goes₃ (rows_all b row)
    · exact columns_all b column
  · exact .pure fun _ mem => by cases mem

end Listed

/-- Nodes that are made once their number is known were made. -/
theorem counted_meets {item : Room.Item} {count : Act μ (Option Nat)} {make : Nat → Act μ Adapter}
    (counts : count.Lawful m)
    (h : ∀ m' n, m.Goes m' → (make n).Meets m' fun m'' b => .made b ∈ m''.past) :
    Act.Meets (do
      match ← count, ← a.hasTree with
      | some n, true => do
        Act.makeRoom item n
        Act.each (List.range n) make
      | _, _ => pure []) m fun m' nodes => m'.Made nodes :=
  counted_all (R := fun m b => .made b ∈ m.past) (fun goes made => goes.remembers made) counts h

theorem Row.cells_meets (h : m.Lived) (known : .made a ∈ m.past) (row : Nat) :
    (Row.cells a row).Meets m fun m' nodes => m'.Made nodes :=
  counted_meets (Row.columnCount_lawful h row) fun _ column goes =>
    (cellNode_meets (h.goes goes) (goes.remembers known) row column).mono fun _ _ _ _ made => made.1

theorem Column.cells_meets (h : m.Lived) (known : .made a ∈ m.past) (column : Nat) :
    (Column.cells a column).Meets m fun m' nodes => m'.Made nodes :=
  counted_meets (Column.rowCount_lawful h column) fun _ row goes =>
    (cellNode_meets (h.goes goes) (goes.remembers known) row column).mono fun _ _ _ _ made => made.1

namespace Table

variable {k : NodeKey}

theorem rowNode_of_table (h : m.Lived) (known : .made a ∈ m.past) (isTable : a.identity = .table k)
    (row : Nat) : (rowNode a.tree a.key a.peer row).Meets m fun m' b => .made b ∈ m'.past := by
  have own : a.key = a.identity.tableKey := by rw [h.keyed.own known isTable, isTable]; rfl
  rw [own]
  exact (rowNode_meets h known row).mono fun _ _ _ _ made => made.1

theorem columnNode_of_table (h : m.Lived) (known : .made a ∈ m.past)
    (isTable : a.identity = .table k) (column : Nat) :
    (columnNode a.tree a.key a.peer column).Meets m fun m' b => .made b ∈ m'.past := by
  have own : a.key = a.identity.tableKey := by rw [h.keyed.own known isTable, isTable]; rfl
  rw [own]
  exact (columnNode_meets h known column).mono fun _ _ _ _ made => made.1

theorem cellNode_of_table (h : m.Lived) (known : .made a ∈ m.past)
    (isTable : a.identity = .table k) (row column : Nat) :
    (cellNode a.tree a.key a.peer row column).Meets m fun m' b => .made b ∈ m'.past := by
  have own : a.key = a.identity.tableKey := by rw [h.keyed.own known isTable, isTable]; rfl
  rw [own]
  exact (cellNode_meets h known row column).mono fun _ _ _ _ made => made.1

theorem nodeIf_meets {present : Option Bool} {make : Act μ Adapter}
    (h : ∀ m', m.Goes m' → make.Meets m' fun m'' b => .made b ∈ m''.past) :
    (nodeIf a present make).Meets m fun m' node => m'.Made node.toList := by
  unfold nodeIf
  split
  · apply hasTree_lawful.next
    intro m' _ goes _ _
    split
    · refine (h m' goes).next fun _ b _ _ made => .pure ?_
      simpa [Moment.Made] using made
    · exact .pure fun _ mem => by cases mem
  · exact .pure fun _ mem => by cases mem

theorem column_meets (h : m.Lived) (known : .made a ∈ m.past) (isTable : a.identity = .table k)
    (column : Nat) : (Table.column a column).Meets m fun m' node => m'.Made node.toList :=
  (read_lawful h _ (Reading.honest_ofInquiry _)).next fun _ _ goes _ _ =>
    nodeIf_meets fun _ goes' => columnNode_of_table (h.goes (goes.trans goes'))
      ((goes.trans goes').remembers known) isTable column

theorem row_meets (h : m.Lived) (known : .made a ∈ m.past) (isTable : a.identity = .table k)
    (row : Nat) : (Table.row a row).Meets m fun m' node => m'.Made node.toList :=
  (read_lawful h _ (Reading.honest_ofInquiry _)).next fun _ _ goes _ _ =>
    nodeIf_meets fun _ goes' => rowNode_of_table (h.goes (goes.trans goes'))
      ((goes.trans goes').remembers known) isTable row

theorem cell_meets (h : m.Lived) (known : .made a ∈ m.past) (isTable : a.identity = .table k)
    (row column : Nat) : (Table.cell a row column).Meets m fun m' node => m'.Made node.toList :=
  (read_lawful h _ (Reading.honest_ofInquiry _)).next fun _ _ goes _ _ =>
    nodeIf_meets fun _ goes' => cellNode_of_table (h.goes (goes.trans goes'))
      ((goes.trans goes').remembers known) isTable row column

theorem rows_meets (h : m.Lived) (known : .made a ∈ m.past) (isTable : a.identity = .table k) :
    (Table.rows a).Meets m fun m' nodes => m'.Made nodes :=
  counted_meets (rowCount_lawful h) fun _ row goes =>
    rowNode_of_table (h.goes goes) (goes.remembers known) isTable row

theorem columns_meets (h : m.Lived) (known : .made a ∈ m.past) (isTable : a.identity = .table k) :
    (Table.columns a).Meets m fun m' nodes => m'.Made nodes :=
  counted_meets (columnCount_lawful h) fun _ column goes =>
    columnNode_of_table (h.goes goes) (goes.remembers known) isTable column

theorem childrenFor_meets (h : m.Lived) (known : .made a ∈ m.past)
    (isTable : a.identity = .table k) (shape : Shape) :
    (childrenFor a shape).Meets m fun m' nodes => m'.Made nodes :=
  childrenFor_all (R := fun m b => .made b ∈ m.past) (fun goes made => goes.remembers made) shape
    (fun _ row goes => rowNode_of_table (h.goes goes) (goes.remembers known) isTable row)
    fun _ column goes => columnNode_of_table (h.goes goes) (goes.remembers known) isTable column

theorem children_meets (h : m.Lived) (known : .made a ∈ m.past) (isTable : a.identity = .table k) :
    (Table.children a).Meets m fun m' nodes => m'.Made nodes := by
  refine (shape_lawful h).next ?_
  intro m' shape goes _ _
  split
  · exact childrenFor_meets (h.goes goes) (goes.remembers known) isTable _
  · exact .pure fun _ mem => by cases mem

end Table

/-! ### The questions every node answers -/

theorem children_meets (h : m.Lived) (known : .made a ∈ m.past) :
    (a.children).Meets m fun m' nodes => m'.Made nodes := by
  unfold children
  split
  · exact Table.children_meets h known ‹_›
  · exact Row.cells_meets h known _
  · exact Column.cells_meets h known _
  · exact .pure fun _ mem => by cases mem

theorem treeChildren_meets (h : m.Lived) (known : .made a ∈ m.past) :
    (a.treeChildren).Meets m fun m' nodes => m'.Made nodes := by
  unfold treeChildren
  split
  · exact .pure fun _ mem => by cases mem
  · exact children_meets h known

theorem childCount_lawful (h : m.Lived) : (a.childCount).Lawful m := by
  unfold childCount
  split
  · exact (Table.shape_lawful h).next fun _ _ _ _ _ => .pure trivial
  · exact Row.columnCount_lawful h _
  · exact Column.rowCount_lawful h _
  · exact (Cell.snapshot_lawful h _ _ _).next fun _ _ _ _ _ => .pure trivial

theorem label_lawful (h : m.Lived) : (a.label).Lawful m := by
  unfold label
  split
  · exact (Table.shape_lawful h).next fun _ _ _ _ _ => .pure trivial
  · exact .pure trivial
  · exact Column.header_lawful h _
  · exact (Cell.snapshot_lawful h _ _ _).next fun _ _ _ _ _ => .pure trivial

theorem indexInParent_lawful (h : m.Lived) : (a.indexInParent).Lawful m := by
  unfold indexInParent
  split
  · exact .pure trivial
  · exact Row.index_lawful h _
  · exact Column.number_lawful h _
  · exact (Cell.snapshot_lawful h _ _ _).next fun _ _ _ _ _ => .pure trivial

theorem roleAnswer_lawful (h : m.Lived) (attr : Attribute) : (a.roleAnswer attr).Lawful m := by
  have value : ∀ {α : Type} {act : Act μ α} {f : α → AttributeValue}, act.Lawful m →
      (do return f (← act)).Lawful m := fun lawful => lawful.next fun _ _ _ _ _ => .pure trivial
  have cell : ∀ {α : Type} {f : Option CellText → α} question row column,
      (do return f (← Cell.snapshot a question row column)).Lawful m := fun question row column =>
    (Cell.snapshot_lawful h question row column).next fun _ _ _ _ _ => .pure trivial
  unfold roleAnswer
  split
  · exact value (Table.rowCount_lawful h)
  · exact value (Table.columnCount_lawful h)
  · exact value (Row.index_lawful h _)
  · exact value (Row.columnCount_lawful h _)
  · exact value (Column.number_lawful h _)
  · exact value (Column.header_lawful h _)
  · exact value ((Column.number_lawful h _).next fun _ _ _ _ _ => .pure trivial)
  · exact value (Column.rowCount_lawful h _)
  · exact value (cell _ _ _)
  · exact value (cell _ _ _)
  · exact value (cell _ _ _)
  · exact value (cell _ _ _)
  · exact value (cell _ _ _)
  · exact .pure trivial

/-- An attribute is answered by deeds. -/
theorem answer_lawful (h : m.Lived) (known : .made a ∈ m.past) (attr : Attribute) :
    (a.answer attr).Lawful m := by
  unfold answer
  split
  · exact .pure trivial
  · exact (Peer.isValid_lawful h).next fun _ _ _ _ _ => .pure trivial
  · exact (label_lawful h).next fun _ _ _ _ _ => .pure trivial
  · apply parentOf_lawful.next
    intro _ parent _ _ _
    split <;> exact .pure trivial
  · exact (children_meets h known).next fun _ _ _ _ _ => .pure trivial
  · exact (childCount_lawful h).next fun _ _ _ _ _ => .pure trivial
  · exact (indexInParent_lawful h).next fun _ _ _ _ _ => .pure trivial
  · exact roleAnswer_lawful h _

/-! ### Nodes written out -/

/-- A node is written out by deeds. -/
theorem build_lawful (h : m.Lived) (known : .made a ∈ m.past) : (a.build).Lawful m := by
  unfold build
  split
  · rename_i isTable
    refine (Table.shape_lawful h).next ?_
    intro _ shape goes _ _
    split
    · exact .pure trivial
    · exact (Table.childrenFor_meets (h.goes goes) (goes.remembers known) isTable _).next
        fun _ _ _ _ _ => .pure trivial
  · refine (Row.index_lawful h _).next ?_
    intro _ index goes _ _
    split
    · exact .pure trivial
    · exact (Row.cells_meets (h.goes goes) (goes.remembers known) _).next
        fun _ _ _ _ _ => .pure trivial
  · refine (tryRead_lawful h (Reading.honest_ofColumn _ _)).next ?_
    intro _ r _ _ _
    refine (degrade_lawful _ r).next ?_
    intro _ _ _ _ _
    split <;> exact .pure trivial
  · refine (Cell.snapshot_lawful h _ _ _).next ?_
    intro _ _ _ _ _
    split <;> exact .pure trivial

end Adapter

/-- A node in a tree was made. -/
theorem made_of_get? {tree : Tree} {k : NodeKey} (h : m.Lived)
    (ht : m.world.trees[t]? = some tree) (ha : tree.get? k = some a) : .made a ∈ m.past :=
  h.keyed.stored ht ha

theorem visit_lawful (h : m.Lived) (depth : Nat) (k : NodeKey) :
    (visit t depth k : Act μ _).Lawful m := by
  induction depth generalizing m k with
  | zero => exact .pure trivial
  | succ depth ih =>
    unfold visit
    apply getTree_meets
    intro tree ht
    split
    · exact .pure trivial
    · rename_i a ha
      refine (Adapter.build_lawful h (made_of_get? h ht ha)).next ?_
      intro m' node goes _ _
      split
      · exact .pure trivial
      · refine Act.Meets.next (Act.Meets.each (R := fun _ _ => True) (fun _ _ => trivial)
          fun m'' id goes' _ _ => ?_) fun _ _ _ _ _ => .pure trivial
        exact ih (h.goes (goes.trans goes')) _

theorem dropDangling_lawful (nodes : List (NodeId × TreeNode)) :
    (dropDangling nodes : Act μ _).Lawful m := by
  refine Act.Meets.mono (Act.Meets.each (R := fun _ _ => True) (fun _ _ => trivial)
    fun m' n _ _ _ => ?_) fun _ _ _ _ _ => trivial
  unfold keepWritten
  dsimp only
  split
  · exact .pure trivial
  · exact .told fun _ _ _ => .pure trivial

/-- A full update is built by deeds. -/
theorem buildTreeUpdate_lawful (h : m.Lived) (root : NodeKey) :
    (buildTreeUpdate t root : Act μ _).Lawful m := by
  unfold buildTreeUpdate
  refine .told ?_
  intro m₁ goes _
  refine (visit_lawful (h.goes goes) _ _).next ?_
  intro _ nodes _ _ _
  split
  · exact .told fun _ _ _ => .pure trivial
  · exact (dropDangling_lawful nodes).next fun _ _ _ _ _ => .told fun _ _ _ => .pure trivial

theorem buildNodeUpdate_lawful (h : m.Lived) (focus : Option NodeKey) (k : NodeKey) :
    (buildNodeUpdate t focus k : Act μ _).Lawful m := by
  unfold buildNodeUpdate
  apply getTree_meets
  intro tree ht
  split
  · exact .pure trivial
  · rename_i a ha
    refine (Adapter.build_lawful h (made_of_get? h ht ha)).next ?_
    intro _ _ _ _ _
    split <;> exact .pure trivial

/-! ### Outlines -/

namespace Outline

/-- What a line says is found out in this order. -/
theorem line_eq (o : Options) (path : List Bool) (a : Adapter) :
    (line o path a : Act μ Line) = (do
      let label ← a.label
      let index ← (if o.showIndices then a.indexInParent else pure none : Act μ _)
      let gone ← (if o.showValidity then Bool.not <$> a.isValid else pure false : Act μ _)
      pure ⟨path, a.role, label, index, if o.showKeys then some a.key.toRaw else none, gone⟩) := by
  obtain ⟨style, showKeys, showIndices, showValidity, maxDepth⟩ := o
  cases showIndices <;> cases showValidity <;> rfl

theorem line_lawful (h : m.Lived) (o : Options) (path : List Bool) :
    (line o path a : Act μ _).Lawful m := by
  rw [line_eq]
  refine (Adapter.label_lawful h).next ?_
  intro m₁ _ goes₁ _ _
  refine Act.Meets.next (Q := fun _ _ => True) ?_ fun m₂ _ goes₂ _ _ => ?_
  · split
    · exact Adapter.indexInParent_lawful (h.goes goes₁)
    · exact .pure trivial
  · refine Act.Meets.next (Q := fun _ _ => True) ?_ fun _ _ _ _ _ => .pure trivial
    split
    · exact .map (Peer.isValid_lawful (h.goes (goes₁.trans goes₂)))
    · exact .pure trivial

theorem mem_of_withMore {items : List α} {item : Bool × α} (h : item ∈ withMore items) :
    item.2 ∈ items := by
  induction items with
  | nil => cases h
  | cons b rest ih =>
    rcases List.mem_cons.1 h with rfl | later
    · exact List.mem_cons_self
    · exact List.mem_cons_of_mem b (ih later)

/-- The lines of a node and of all below it are found out by deeds. -/
theorem linesUnder_lawful (h : m.Lived) (o : Options) (depth : Nat) (path : List Bool)
    (known : .made a ∈ m.past) : (linesUnder o depth path a : Act μ _).Lawful m := by
  induction depth generalizing m path a with
  | zero => exact .pure trivial
  | succ depth ih =>
    unfold linesUnder
    split
    · exact .pure trivial
    · refine (line_lawful h o path).next ?_
      intro m₁ _ goes₁ _ _
      refine (Adapter.treeChildren_meets (h.goes goes₁) (goes₁.remembers known)).next
        fun m₂ children goes₂ _ made => ?_
      refine Act.Meets.next (Act.Meets.each (R := fun _ _ => True) (fun _ _ => trivial)
        fun m₃ child goes₃ _ mem => ?_) fun _ _ _ _ _ => .pure trivial
      have goes := goes₁.trans (goes₂.trans goes₃)
      exact ih (h.goes goes) _ (goes₃.remembers (made child.2 (mem_of_withMore mem)))

end Outline

theorem outlineUnder_lawful (h : m.Lived) (o : Outline.Options) (known : .made a ∈ m.past) :
    (outlineUnder o a : Act μ _).Lawful m :=
  (Outline.linesUnder_lawful h o _ _ known).next fun _ _ _ _ _ => .pure trivial

/-- The outline of a tree is drawn by deeds. -/
theorem outlineAll_lawful (h : m.Lived) (o : Outline.Options) :
    (outlineAll o t : Act μ _).Lawful m := by
  unfold outlineAll
  apply getTree_meets
  intro tree ht
  refine Act.Meets.next (Act.Meets.each (R := fun _ _ => True) (fun _ _ => trivial)
    fun m' a goes _ mem => ?_) fun _ _ _ _ _ => .pure trivial
  obtain ⟨⟨k, a⟩, listed, rfl⟩ := List.mem_map.1 (List.mem_filter.1 mem).1
  have stored : tree.get? k = some a := (h.coherent ht).indexed.arena.mem_toList.1 listed
  exact outlineUnder_lawful (h.goes goes) o (goes.remembers (h.keyed.stored ht stored))

/-! ### Bridges -/

namespace Moment

/-- A bridge keeps its tree. -/
theorem Step.keeps_bridge {b : BridgeId} {bridge : Bridge} (h : m.Step m')
    (hb : m.world.bridges[b]? = some bridge) :
    ∃ bridge', m'.world.bridges[b]? = some bridge' ∧ bridge'.tree = bridge.tree := by
  cases h with
  | trees h =>
    cases h with
    | span =>
      obtain ⟨lt, -⟩ := List.getElem?_eq_some_iff.1 hb
      exact ⟨bridge, by simp [List.getElem?_append_left lt, hb], rfl⟩
    | @root b' bridge' tree a =>
      by_cases here : b' = b
      · subst here
        exact ⟨{ bridge with root := some a.key }, by simp [hb], rfl⟩
      · exact ⟨bridge, by simp [here, hb], rfl⟩
    | _ => exact ⟨bridge, hb, rfl⟩
  | _ => exact ⟨bridge, hb, rfl⟩

theorem Goes.keeps_bridge {b : BridgeId} {bridge : Bridge} (h : m.Goes m')
    (hb : m.world.bridges[b]? = some bridge) :
    ∃ bridge', m'.world.bridges[b]? = some bridge' ∧ bridge'.tree = bridge.tree := by
  refine h.keeps (P := fun m' => ∃ bridge', m'.world.bridges[b]? = some bridge' ∧
    bridge'.tree = bridge.tree) ⟨bridge, hb, rfl⟩ fun step ⟨_, hb', same⟩ => ?_
  obtain ⟨bridge'', hb'', same'⟩ := step.keeps_bridge hb'
  exact ⟨bridge'', hb'', same'.trans same⟩

end Moment

namespace Bridge

variable {b : BridgeId}

/-- Looking at a bridge changes nothing. -/
theorem getBridge_meets {f : Bridge → Act μ α} {Q : Moment μ → α → Prop}
    (h : ∀ bridge, m.world.bridges[b]? = some bridge → (f bridge).Meets m Q) :
    (getBridge b >>= f).Meets m Q := by
  refine .bind ?_
  unfold getBridge
  refine .get ?_
  split
  · exact .pure (h _ ‹_›)
  · exact .throw _

theorem node?_meets {f : Option Adapter → Act μ α} {Q : Moment μ → α → Prop} {id : NodeId}
    (h : ∀ bridge tree, m.world.bridges[b]? = some bridge →
      m.world.trees[bridge.tree]? = some tree → (f (tree.get? (.ofRaw id))).Meets m Q) :
    (node? b id >>= f).Meets m Q := by
  refine .bind (getBridge_meets fun bridge hb => getTree_meets fun tree ht => ?_)
  exact .pure (h bridge tree hb ht)

theorem root?_meets {f : Option NodeKey → Act μ α} {Q : Moment μ → α → Prop}
    (h : ∀ bridge tree, m.world.bridges[b]? = some bridge →
      m.world.trees[bridge.tree]? = some tree →
      (f (bridge.root.filter fun k => (tree.get? k).isSome)).Meets m Q) :
    (root? b >>= f).Meets m Q := by
  refine .bind (getBridge_meets fun bridge hb => getTree_meets fun tree ht => ?_)
  exact .pure (h bridge tree hb ht)

/-- A table is attached through a bridge by deeds. -/
theorem attach_meets {table : TableId} (h : m.Lived) (there : table < m.world.tables.length) :
    (attach b table).Meets m fun m' a => .made a ∈ m'.past := by
  unfold attach
  apply getBridge_meets
  intro bridge hb
  refine Act.Meets.next (Q := fun m' a => m.Goes m' ∧ .made a ∈ m'.past ∧ a.role = .table ∧
    ∃ tree, m'.world.trees[bridge.tree]? = some tree ∧ tree.get? a.key = some a) ?_
    fun m₁ a _ _ ⟨goes₁, made, isTable, tree, ht, ha⟩ => ?_
  · exact (attachTable_meets h there).mono fun _ _ goes _ made => ⟨goes, made⟩
  · refine root?_meets fun bridge' tree' hb' ht' => ?_
    obtain ⟨bridge'', hb'', same⟩ := goes₁.keeps_bridge hb
    rw [hb''] at hb'
    cases hb'
    rw [same, ht] at ht'
    cases ht'
    split
    · rename_i none
      have step : Moment.Step ⟨m₁.past, m₁.world.tell (.becameRoot a.key.toRaw)⟩ _ :=
        .trees (.root hb'' (same ▸ ht) (Option.isNone_iff_eq_none.1 none) ha isTable)
      refine .bind (.tell _ (.bind (.modify step.goes rfl rfl (.pure ?_))))
      exact step.past.subset made
    · exact .pure made

/-- A query is answered by deeds. -/
theorem query_lawful (h : m.Lived) (id : NodeId) (attr : Attribute) :
    (query b id attr : Act μ _).Lawful m := by
  unfold query
  refine .told fun m₁ goes _ => node?_meets fun bridge tree hb ht => ?_
  split
  · exact .told fun _ _ _ => .pure trivial
  · rename_i a ha
    have known := made_of_get? (h.goes goes) ht ha
    refine (Adapter.answer_lawful (h.goes goes) known attr).next ?_
    intro _ _ _ _ _
    exact .told fun _ _ _ => .pure trivial

theorem treeUpdate_lawful (h : m.Lived) (k : NodeKey) : (treeUpdate b k : Act μ _).Lawful m :=
  getBridge_meets fun _ _ => buildTreeUpdate_lawful h k

theorem nodeUpdate_lawful (h : m.Lived) (k : NodeKey) : (nodeUpdate b k : Act μ _).Lawful m := by
  unfold nodeUpdate
  apply getBridge_meets
  intro bridge _
  refine (buildNodeUpdate_lawful h none k).next ?_
  intro _ _ _ _ _
  split
  · exact .pure trivial
  · exact root?_meets fun _ _ _ _ => .pure trivial

theorem initialTree_lawful (h : m.Lived) : (initialTree b : Act μ _).Lawful m := by
  unfold initialTree
  refine root?_meets fun _ _ _ _ => ?_
  split
  · exact .pure trivial
  · exact treeUpdate_lawful h _

theorem ignoreAction_lawful (id : NodeId) (action : Action) :
    (ignoreAction b id action : Act μ _).Lawful m := by
  unfold ignoreAction
  exact node?_meets fun _ _ _ _ => .tell _ trivial

end Bridge

end TableAccess
