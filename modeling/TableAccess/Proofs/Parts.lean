import TableAccess.Proofs.Shown
import TableAccess.Proofs.Written

/-!
# The nodes of parts

The nodes of what a table is divided into are found or made in a tree at once. All of them are there,
in order, unless so many find no room: in a list, or in the tree.

## The model

* `World.Names` — what comes of nodes that are found or made; `Act.Yields` — an act that comes to it.
* `Adapter.Divides` — how a node answers what its children are; `Adapter.divides` — that it does so.
-/

namespace TableAccess

variable {μ α β : Type} {w w' : World μ} {t : TreeId} {a : Adapter} {parts : List Identity}

/-! ### Acts that find or make nodes -/

namespace World

/-- A tree takes no more nodes. -/
def Full (w : World μ) (t : TreeId) : Prop :=
  ∃ tree, w.trees[t]? = some tree ∧ tree.nodes.nextKey? = none

/-- What comes of the nodes of some parts: they are in the tree, in order, or so many find no room. -/
inductive Names (w : World μ) (t : TreeId) (parts : List Identity) :
    Except Panic (List Adapter) → Prop where
  /-- All of them are in the tree. -/
  | nodes {nodes : List Adapter} (stand : nodes.map Adapter.identity = parts)
      (there : ∀ b ∈ nodes, w.Holds t b) : Names w t parts (.ok nodes)
  /-- A list of so many finds no room. -/
  | noList {item : Room.Item} (long : ¬Room.Fits item parts.length) :
    Names w t parts (.error Room.overflow)
  /-- The tree takes no more. -/
  | noNode (full : w.Full t) : Names w t parts (.error treeFull)

end World

/-- An act is over at once, and panics only when a tree takes no more nodes. -/
structure Act.Settles (t : TreeId) (act : Act μ α) (w : World μ) : Prop where
  /-- So it ends. -/
  ends : ∃ result w', act w = .done result w' ∧ ∀ p, result = .error p → p = treeFull ∧ w'.Full t

/-- An act is over at once, and comes to the nodes of some parts. -/
structure Act.Yields (t : TreeId) (parts : List Identity) (act : Act μ (List Adapter))
    (w : World μ) : Prop where
  /-- So it ends. -/
  ends : ∃ result w', act w = .done result w' ∧ w'.Names t parts result

/-- An act finds or makes the node of an identity, and is over at once. -/
structure Act.Makes (t : TreeId) (i : Identity) (act : Act μ Adapter) : Prop where
  /-- It finds or makes the node. -/
  finds : act.Finds (fun _ _ => False) t i
  /-- It is over at once. -/
  settles : ∀ {w : World μ}, w.Sound t → act.Settles t w

namespace Act.Settles

theorem pure (a : α) : (pure a : Act μ α).Settles t w := ⟨_, _, rfl, fun p e => by cases e⟩

theorem bind {act : Act μ α} {f : α → Act μ β} (h : act.Settles t w)
    (rest : ∀ {a w'}, act w = .done (.ok a) w' → (f a).Settles t w') : (act >>= f).Settles t w := by
  obtain ⟨result, w', run, full⟩ := h.ends
  refine ⟨?_⟩
  rw [bind_apply, run]
  cases result with
  | ok a => exact (rest run).ends
  | error p =>
    obtain ⟨cause, taken⟩ := full p rfl
    exact ⟨_, _, rfl, fun q e => ⟨(Except.error.inj e).symm.trans cause, taken⟩⟩

end Act.Settles

theorem obtain_settles {i : Identity} {parent : Option NodeKey} {peer : PeerId}
    (sound : w.Sound t) : (obtain t i parent peer).Settles t w := by
  obtain ⟨tree, ht, -⟩ := sound
  unfold obtain
  refine ⟨?_⟩
  rw [Act.bind_apply, getTree_run ht, Progress.bind]
  cases tree.find? i with
  | some b => exact ⟨_, _, rfl, fun p e => by cases e⟩
  | none =>
    cases next : tree.nodes.nextKey? with
    | none => exact ⟨_, _, rfl, fun p e => ⟨(Except.error.inj e).symm, tree, ht, next⟩⟩
    | some k => exact ⟨_, _, rfl, fun p e => by cases e⟩

section Makes

variable (table : NodeKey) (peer : PeerId)

theorem rowNode_makes (row : Nat) : (rowNode t table peer row : Act μ _).Makes t (.row table row) :=
  ⟨rowNode_finds table peer row, fun sound => obtain_settles sound⟩

theorem columnNode_makes (column : Nat) :
    (columnNode t table peer column : Act μ _).Makes t (.column table column) :=
  ⟨columnNode_finds table peer column, fun sound => obtain_settles sound⟩

theorem cellNode_makes (row column : Nat) :
    (cellNode t table peer row column : Act μ _).Makes t (.cell table row column) := by
  refine ⟨cellNode_finds table peer row column, fun sound => ?_⟩
  refine ((rowNode_makes table peer row).settles sound).bind fun run => obtain_settles ?_
  exact ((rowNode_finds table peer row).retains.run (.of_done run)).sound sound

end Makes

namespace Act.Yields

theorem nil : (pure [] : Act μ _).Yields t [] w :=
  ⟨_, _, rfl, .nodes rfl fun b hb => by cases hb⟩

theorem makeRoom {item : Room.Item} {count : Nat} {act : Act μ (List Adapter)}
    (counted : parts.length = count) (h : act.Yields t parts w) :
    (do Act.makeRoom item count; act).Yields t parts w := by
  refine ⟨?_⟩
  rw [bind_apply]
  unfold Act.makeRoom
  by_cases fits : Room.Fits item count
  · rw [if_pos fits]
    exact h.ends
  · rw [if_neg fits]
    exact ⟨_, w, rfl, .noList (counted ▸ fits)⟩

/-- Acts for one node each, one after the other. -/
theorem each {make : Nat → Act μ Adapter} {identity : Nat → Identity} {items : List Nat}
    (makes : ∀ n, (make n).Makes t (identity n)) (sound : w.Sound t) :
    (Act.each items make).Yields t (items.map identity) w := by
  have settles : (Act.each items make).Settles t w := by
    induction items generalizing w with
    | nil => exact .pure []
    | cons n rest ih =>
      rw [each_cons]
      refine ((makes n).settles sound).bind fun run => ?_
      have sound₁ := ((makes n).finds.retains.run (.of_done run)).sound sound
      exact (ih sound₁).bind fun _ => .pure _
  obtain ⟨result, w', run, full⟩ := settles.ends
  refine ⟨result, w', run, ?_⟩
  cases result with
  | ok nodes =>
    obtain ⟨stand, there⟩ := each_finds (fun n => (makes n).finds) (.of_done run) sound
    exact .nodes stand there
  | error p =>
    obtain ⟨cause, taken⟩ := full p rfl
    exact cause ▸ .noNode taken

/-- First the nodes of some parts, then those of others. -/
theorem append {first second : Act μ (List Adapter)} {parts' : List Identity}
    (h : first.Yields t parts w) (h' : ∀ {w}, w.Sound t → second.Yields t parts' w)
    (keeps : first.Retains (fun _ _ => False) t) (keeps' : second.Retains (fun _ _ => False) t)
    (sound : w.Sound t) :
    (do
      let nodes ← first
      let nodes' ← second
      pure (nodes ++ nodes')).Yields t (parts ++ parts') w := by
  obtain ⟨result, w₁, run, names⟩ := h.ends
  refine ⟨?_⟩
  rw [bind_apply, run]
  cases names with
  | noList long => exact ⟨_, _, rfl, .noList fun fits => long (fits.mono (by simp))⟩
  | noNode full => exact ⟨_, _, rfl, .noNode full⟩
  | @nodes nodes stand there =>
    obtain ⟨result, w₂, run', names'⟩ := (h' ((keeps.run (.of_done run)).sound sound)).ends
    show ∃ result w', (second w₁).bind _ = .done result w' ∧ w'.Names t _ result
    rw [run']
    cases names' with
    | noList long => exact ⟨_, _, rfl, .noList fun fits => long (fits.mono (by simp))⟩
    | noNode full => exact ⟨_, _, rfl, .noNode full⟩
    | @nodes nodes' stand' there' =>
      refine ⟨_, _, rfl, .nodes (by rw [List.map_append, stand, stand']) ?_⟩
      intro b hb
      rcases List.mem_append.1 hb with hb | hb
      · exact (keeps'.run (.of_done run')).holds (there b hb)
      · exact there' b hb

end Act.Yields

/-! ### Children -/

namespace Adapter

/-- How a node answers what its children are: it has none, or it takes them from one reading of its
table. -/
inductive Divides (μ : Type) (a : Adapter) : Prop where
  /-- It has none, whatever the contents are. -/
  | known (children : (a.children : Act μ _) = pure [])
      (divided : ∀ g : Grid, g.parts a.identity = [])
  /-- It reads the table once, and its children are the parts that the contents have. -/
  | reads {α : Type} {question : String} {read : Inquiry (Except Unavailable α)}
      {f : Option α → Act μ (List Adapter)}
      (children : (a.children : Act μ _) = a.read question read >>= f)
      (divided : ∀ t : GridTable, t.grid.Rectangular → ∃ result, read.Reads t result ∧
        ∀ w : World μ, w.Sound a.tree → (a.tree? w).isSome →
          (f result.toOption).Yields a.tree (t.grid.parts a.identity) w)

variable {k : NodeKey}

/-- A bridge that holds the tree is found to hold it. -/
theorem hasTree_bind {f : Bool → Act μ α} (held : (a.tree? w).isSome) :
    (a.hasTree >>= f) w = f true w := by
  show f (a.tree? w).isSome w = _
  rw [held]

/-- Parts that are counted by one reading. -/
theorem Divides.of_count {question : String} {read : Inquiry (Except Unavailable Nat)}
    {item : Room.Item} {make : Nat → Act μ Adapter} {identity : Nat → Identity}
    (children : (a.children : Act μ _) = do
      match ← a.read question read, ← a.hasTree with
      | some n, true => do
        Act.makeRoom item n
        Act.each (List.range n) make
      | _, _ => pure [])
    (makes : ∀ n, (make n).Makes a.tree (identity n))
    (counted : ∀ t : GridTable, ∃ result, read.Reads t result ∧
      t.grid.parts a.identity = (List.range (result.toOption.getD 0)).map identity) :
    a.Divides μ := by
  refine .reads children ?_
  intro t _
  obtain ⟨result, reads, parts⟩ := counted t
  refine ⟨result, reads, fun w sound held => ⟨?_⟩⟩
  rw [parts, hasTree_bind held]
  cases result with
  | ok n => exact (Act.Yields.makeRoom (by simp) (.each makes sound)).ends
  | error u => exact Act.Yields.nil.ends

theorem divides_table (isTable : a.identity = .table k) (own : a.key = k) : a.Divides μ := by
  have children : (a.children : Act μ _) = Table.children a := by simp only [children, isTable]
  refine .reads children fun t _ => ⟨_, Reading.shape_reads, fun w sound held => ⟨?_⟩⟩
  show ∃ result w', Table.childrenFor a _ w = .done result w' ∧ _
  unfold Table.childrenFor
  rw [hasTree_bind held, isTable, ← own]
  have rows := rowNode_makes (μ := μ) (t := a.tree) a.key a.peer
  have columns := columnNode_makes (μ := μ) (t := a.tree) a.key a.peer
  refine (Act.Yields.makeRoom (by simp) (.append (.each rows sound) ?_ ?_ ?_ sound)).ends
  · exact fun sound => .each columns sound
  · exact .each fun r => (rows r).finds.retains
  · exact .each fun c => (columns c).finds.retains

/-- Every node answers so what its children are. -/
theorem divides (a : Adapter) (own : ∀ k, a.identity = .table k → a.key = k) : a.Divides μ := by
  cases e : a.identity with
  | table k => exact divides_table e (own k e)
  | row k row =>
    have children : (a.children : Act μ _) = Row.cells a row := by simp only [children, e]
    refine .of_count children (fun c => cellNode_makes a.tableKey a.peer row c) fun t =>
      ⟨_, Reading.ofRow_reads row rfl, ?_⟩
    rw [e, tableKey, e]
    simp only [Grid.parts]
    split <;> rfl
  | column k column =>
    have children : (a.children : Act μ _) = Column.cells a column := by simp only [children, e]
    refine .of_count children (fun r => cellNode_makes a.tableKey a.peer r column) fun t =>
      ⟨_, Reading.ofColumn_reads column rfl, ?_⟩
    rw [e, tableKey, e]
    simp only [Grid.parts]
    split <;> rfl
  | cell k row column =>
    refine .known ?_ fun g => by rw [e]; rfl
    simp only [children, e]

end Adapter

end TableAccess
