import TableAccess.Proofs.TreeRuns

/-!
# Nodes written out

Whatever a table answers, a node that is written out lists the parts of what it stands for, each once:
a table some rows and some columns, a row some cells, columns and cells nothing. How many there are is
the table's affair. The parts have their nodes in the tree, where they stay.

## The model

* `Identity.Divided` — the identities of the children that a node can have in the serialized tree.
* `World.Lists` — a list of ids names the nodes of such parts.
* `Adapter.build_retains`, `Adapter.build_lists` — every run that writes out a node does so.
-/

namespace TableAccess

variable {μ α : Type} {R : World μ → World μ → Prop} {w w' : World μ} {t : TreeId} {a : Adapter}

/-- What the children of a node stand for in the serialized tree. -/
def Identity.Divided : Identity → List Identity → Prop
  | .table k, parts => ∃ rows columns,
    parts = (List.range rows).map (.row k) ++ (List.range columns).map (.column k)
  | .row k r, parts => ∃ columns, parts = (List.range columns).map (.cell k r)
  | .column _ _, parts => parts = []
  | .cell _ _ _, parts => parts = []

/-- Ids name the nodes of the parts of a node. -/
def World.Lists (w : World μ) (t : TreeId) (a : Adapter) (children : List NodeId) : Prop :=
  ∃ nodes, children = Adapter.ids nodes ∧ (∀ b ∈ nodes, w.Holds t b) ∧
    a.identity.Divided (nodes.map Adapter.identity)

namespace Adapter

/-- Counted parts, each of which is found or made. -/
theorem counted_retains {item : Room.Item} {count : Act μ (Option Nat)} {make : Nat → Act μ Adapter}
    {identity : Nat → Identity} (counts : count.Retains R t)
    (finds : ∀ n, (make n).Finds R t (identity n)) :
    Act.Retains R t (do
      match ← count, ← a.hasTree with
      | some n, true => do
        Act.makeRoom item n
        Act.each (List.range n) make
      | _, _ => pure []) := by
  refine counts.bind fun n => hasTree_retains.bind fun held => ?_
  split
  · exact (Act.Retains.makeRoom _ _).bind fun _ => .each fun n => (finds n).retains
  · exact .pure _

theorem counted_run {item : Room.Item} {count : Act μ (Option Nat)} {make : Nat → Act μ Adapter}
    {identity : Nat → Identity} {nodes : List Adapter} (counts : count.Retains R t)
    (finds : ∀ n, (make n).Finds R t (identity n))
    (run : Act.Ends R (do
      match ← count, ← a.hasTree with
      | some n, true => do
        Act.makeRoom item n
        Act.each (List.range n) make
      | _, _ => pure []) w (.ok nodes) w') (sound : w.Sound t) :
    ∃ n, nodes.map Adapter.identity = (List.range n).map identity ∧ ∀ b ∈ nodes, w'.Holds t b := by
  obtain ⟨n, w₁, first, run⟩ := run.bind_ok
  obtain ⟨held, w₂, second, run⟩ := run.bind_ok
  have sound₂ := (hasTree_retains.run second).sound ((counts.run first).sound sound)
  split at run
  · rename_i n _
    exact ⟨n, each_finds finds run.makeRoom sound₂⟩
  · obtain ⟨e, -⟩ := run.pure
    cases e
    exact ⟨0, rfl, fun b hb => by cases hb⟩

theorem cells_finds (here : a.tree = t) (row column : Nat) :
    (cellNode a.tree a.tableKey a.peer row column : Act μ _).Finds R t
      (.cell a.tableKey row column) := by
  rw [here]
  exact cellNode_finds _ _ row column

namespace Table

theorem rowNodes_finds (here : a.tree = t) (row : Nat) :
    (rowNode a.tree a.key a.peer row : Act μ _).Finds R t (.row a.key row) := by
  rw [here]
  exact rowNode_finds _ _ row

theorem columnNodes_finds (here : a.tree = t) (column : Nat) :
    (columnNode a.tree a.key a.peer column : Act μ _).Finds R t (.column a.key column) := by
  rw [here]
  exact columnNode_finds _ _ column

theorem childrenFor_retains (here : a.tree = t) (shape : Shape) :
    (childrenFor a shape : Act μ _).Retains R t := by
  unfold childrenFor
  apply hasTree_retains.bind
  intro held
  split
  · refine (Act.Retains.makeRoom _ _).bind ?_
    intro _
    refine Act.Retains.bind (.each fun r => (rowNodes_finds here r).retains) fun _ => ?_
    exact Act.Retains.bind (.each fun c => (columnNodes_finds here c).retains) fun _ => .pure _
  · exact .pure _

/-- The rows come first, then the columns. -/
theorem childrenFor_run {shape : Shape} {nodes : List Adapter} (here : a.tree = t)
    (run : (childrenFor a shape).Ends R w (.ok nodes) w') (sound : w.Sound t) :
    (∃ rows columns, nodes.map Adapter.identity =
      (List.range rows).map (.row a.key) ++ (List.range columns).map (.column a.key)) ∧
      ∀ b ∈ nodes, w'.Holds t b := by
  obtain ⟨held, w₁, first, run⟩ := run.bind_ok
  have sound₁ := (hasTree_retains.run first).sound sound
  split at run
  · obtain ⟨rows, w₂, second, run⟩ := run.makeRoom.bind_ok
    obtain ⟨columns, w₃, third, run⟩ := run.bind_ok
    obtain ⟨e, rfl⟩ := run.pure
    cases e
    have kept := (Act.Retains.each fun r => (rowNodes_finds here r).retains).run second
    have kept' := (Act.Retains.each fun c => (columnNodes_finds here c).retains).run third
    obtain ⟨areRows, there⟩ := each_finds (rowNodes_finds here) second sound₁
    obtain ⟨areColumns, there'⟩ := each_finds (columnNodes_finds here) third (kept.sound sound₁)
    refine ⟨⟨shape.rows, shape.columns, by rw [List.map_append, areRows, areColumns]⟩, ?_⟩
    intro b hb
    rcases List.mem_append.1 hb with hb | hb
    · exact kept'.holds (there b hb)
    · exact there' b hb
  · obtain ⟨e, rfl⟩ := run.pure
    cases e
    exact ⟨⟨0, 0, rfl⟩, fun b hb => by cases hb⟩

end Table

section Build

variable (others : ∀ {w w' : World μ}, R w w' → World.Retains t w w')

include others

theorem Row.cells_retains (here : a.tree = t) (row : Nat) :
    (Row.cells a row : Act μ _).Retains R t :=
  counted_retains (read_retains others _ _) fun column => cells_finds here row column

/-- Writing out a node leaves the nodes of its tree where they are. -/
theorem build_retains (here : a.tree = t) : (a.build : Act μ _).Retains R t := by
  have degraded : ∀ {α : Type} (question : String) (reading : Inquiry (Except Unavailable α)),
      (do a.degrade question (← a.tryRead reading) : Act μ _).Retains R t :=
    fun question reading => read_retains others question reading
  unfold build
  split
  · unfold buildTable
    refine (degraded _ _).bind ?_
    intro shape
    split
    · exact .pure _
    · exact (Table.childrenFor_retains here _).bind fun _ => .pure _
  · unfold buildRow
    refine (degraded _ _).bind ?_
    intro index
    split
    · exact .pure _
    · exact (Row.cells_retains others here _).bind fun _ => .pure _
  · unfold buildColumn
    refine (query_retains others _ _).bind fun _ => (degrade_retains _ _).bind fun header => ?_
    split <;> exact .pure _
  · unfold buildCell
    refine (degraded _ _).bind ?_
    intro snapshot
    split <;> exact .pure _

/-- A node that is written out lists the nodes of its parts. -/
theorem build_lists {node : TreeNode} (holds : w.Holds t a)
    (run : a.build.Ends R w (.ok (some node)) w') : w'.Lists t a node.children := by
  have here := holds.here
  have degraded : ∀ {α : Type} (question : String) (reading : Inquiry (Except Unavailable α)),
      (do a.degrade question (← a.tryRead reading) : Act μ _).Retains R t :=
    fun question reading => read_retains others question reading
  have childless : ∀ {w : World μ} {label row column}, a.identity.Divided [] →
      w.Lists t a { TreeNode.ofRole a.role.toTreeRole with
        label := label, rowIndex := row, columnIndex := column }.children :=
    fun divided => ⟨[], rfl, (fun b hb => by cases hb), divided⟩
  unfold build at run
  cases e : a.identity with
  | table k =>
    simp only [e] at run
    obtain ⟨shape, w₁, first, run⟩ := run.bind_ok
    have sound := ((degraded _ _).run first).sound holds.sound
    split at run
    · cases run.pure.1
    · obtain ⟨nodes, w₂, second, run⟩ := run.bind_ok
      obtain ⟨e', rfl⟩ := run.pure
      cases e'
      obtain ⟨⟨rows, columns, parts⟩, there⟩ := Table.childrenFor_run here second sound
      refine ⟨nodes, rfl, there, ?_⟩
      rw [e, parts, holds.own e]
      exact ⟨rows, columns, rfl⟩
  | row k r =>
    simp only [e] at run
    obtain ⟨index, w₁, first, run⟩ := run.bind_ok
    have sound := ((degraded _ _).run first).sound holds.sound
    split at run
    · cases run.pure.1
    · obtain ⟨nodes, w₂, second, run⟩ := run.bind_ok
      obtain ⟨e', rfl⟩ := run.pure
      cases e'
      obtain ⟨columns, parts, there⟩ := counted_run (read_retains others _ _)
        (fun column => cells_finds here r column) second sound
      refine ⟨nodes, rfl, there, ?_⟩
      rw [e, parts, tableKey, e]
      exact ⟨columns, rfl⟩
  | column k c =>
    simp only [e] at run
    obtain ⟨result, w₁, first, run⟩ := run.bind_ok
    obtain ⟨header, w₂, second, run⟩ := run.bind_ok
    split at run
    · cases run.pure.1
    · obtain ⟨e', rfl⟩ := run.pure
      cases e'
      exact childless (by rw [e]; rfl)
  | cell k r c =>
    simp only [e] at run
    obtain ⟨snapshot, w₁, first, run⟩ := run.bind_ok
    split at run
    · cases run.pure.1
    · obtain ⟨e', rfl⟩ := run.pure
      cases e'
      exact childless (by rw [e]; rfl)

end Build

end Adapter

end TableAccess
