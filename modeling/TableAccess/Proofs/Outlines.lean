import TableAccess.Proofs.Navigation
import TableAccess.Proofs.Serialized

/-!
# Outlines and updates

The outline of a table and its update are made on two walks that have nothing in common: one from child
to child, which asks for each answer by itself, one over the nodes as they are written out. As long as
the contents stay and nobody else does anything to the tree both tell of one and the same tree, whatever
the labels hold.

## The model

* `Update.Depth` — how far a node is below the root of an update.
* `Text.IsLines` — the lines of a text.
* `Stage.Shows` — what the line of a part line.
* `Brings.linesUnder` — the lines of a node and all below it.
* `Outline.Describes` — a text has a line for each node of an update.
* `outline_describes_the_update` — the main statement.
-/

namespace TableAccess

variable {μ α : Type} {R : World μ → World μ → Prop} {w w' : World μ} {s : Stage}
  {E : Tree → Tree → Prop} {i j : Identity} {a b : Adapter} {g : Grid} {u : Update} {d : Nat}

/-! ### Depth -/

/-- How far below the root of an update a node is. -/
inductive Update.Depth (u : Update) : NodeId → Nat → Prop where
  /-- The root. -/
  | root {id : NodeId} (h : u.root = some id) : Depth u id 0
  /-- A child is one further down. -/
  | child {id child : NodeId} {n : TreeNode} {d : Nat} (h : Depth u id d) (written : (id, n) ∈ u.nodes)
      (isChild : child ∈ n.children) : Depth u child (d + 1)

/-- How far a part of a table is below it. -/
def Identity.depth : Identity → Nat
  | .table _ => 0
  | .row _ _ | .column _ _ => 1
  | .cell _ _ _ => 2

namespace Grid

theorem depth_of_branch (hj : j ∈ g.branches i) : j.depth = i.depth + 1 := by
  rcases (g.divided_branches i).of_mem hj with ⟨k, r, rfl, rfl⟩ | ⟨k, c, rfl, rfl⟩ |
    ⟨k, r, c, rfl, rfl⟩ <;> rfl

/-- The levels are counted from the table on. -/
theorem depth_of_below {depth : Nat} {x : Nat × Identity} (hx : x ∈ g.below depth i.depth i) :
    x.1 = x.2.depth := by
  induction depth generalizing i with
  | zero => cases hx
  | succ depth ih =>
    rcases List.mem_cons.1 hx with rfl | hx
    · rfl
    · obtain ⟨j, hj, hx⟩ := List.mem_flatMap.1 hx
      exact ih (depth_of_branch hj ▸ hx)

end Grid

namespace Stage

/-- Each node of the update is as far below its root as what it stands for is below the table. -/
theorem Serializes.depth (h : s.Serializes w u) (stands : s.Stands w) (own : i.tableKey = s.key)
    (there : s.grid.Includes i) : u.Depth (s.nodeId w i) d ↔ d = i.depth := by
  have root : u.root = some (s.nodeId w (.table s.key)) := by rw [h.update]; rfl
  have nodes : u.nodes =
      (s.grid.serial s.key).map fun i => (s.nodeId w i, s.grid.written (s.nodeId w) i) := by
    rw [h.update]
    rfl
  constructor
  · intro below
    -- what is in reach of the root is the id of some part, at the depth of that part; as two parts have
    -- two ids that part is `i`
    suffices known : ∃ j, j.tableKey = s.key ∧ s.grid.Includes j ∧ s.nodeId w i = s.nodeId w j ∧
        d = j.depth by
      obtain ⟨j, own', there', same, rfl⟩ := known
      obtain ⟨a, ha⟩ := h.whole i own there
      obtain ⟨b, hb⟩ := h.whole j own' there'
      rw [ha.eq_of_nodeId hb stands same]
    generalize s.nodeId w i = id at below
    clear own there
    induction below with
    | root isRoot =>
      rw [root] at isRoot
      cases isRoot
      exact ⟨.table s.key, rfl, trivial, rfl, rfl⟩
    | @child id c n d _ written isChild ih =>
      obtain ⟨p, own, there, rfl, rfl⟩ := ih
      rw [nodes] at written
      obtain ⟨q, mem, e⟩ := List.mem_map.1 written
      obtain ⟨own', there'⟩ := Grid.mem_serial.1 mem
      obtain ⟨same, rfl⟩ := Prod.mk.inj e
      obtain ⟨a, ha⟩ := h.whole q own' there'
      obtain ⟨b, hb⟩ := h.whole p own there
      obtain rfl := ha.eq_of_nodeId hb stands same
      rw [Grid.written_children] at isChild
      obtain ⟨j, hj, rfl⟩ := List.mem_map.1 isChild
      obtain ⟨there'', family⟩ := Grid.includes_of_branch hj
      exact ⟨j, family.trans own, there'', rfl, (Grid.depth_of_branch hj).symm⟩
  · rintro rfl
    -- from the table down: rows and columns are one step away, cells two
    have next : ∀ {p j : Identity}, p.tableKey = s.key → s.grid.Includes p →
        u.Depth (s.nodeId w p) p.depth → j ∈ s.grid.branches p → u.Depth (s.nodeId w j) j.depth := by
      intro p j own there above branch
      rw [Grid.depth_of_branch branch]
      refine .child above (n := s.grid.written (s.nodeId w) p) ?_ ?_
      · rw [nodes]
        exact List.mem_map.2 ⟨p, Grid.mem_serial.2 ⟨own, there⟩, rfl⟩
      · rw [Grid.written_children]
        exact List.mem_map.2 ⟨j, branch, rfl⟩
    have table : u.Depth (s.nodeId w (.table s.key)) 0 := .root root
    cases i with
    | table k =>
      obtain rfl : k = s.key := own
      exact table
    | row k r | column k c =>
      obtain rfl : k = s.key := own
      exact next (p := .table s.key) rfl trivial table (there.branch_of_parent? rfl)
    | cell k r c =>
      obtain rfl : k = s.key := own
      have row : s.grid.Includes (.row s.key r) := there.1
      have above := next (p := .table s.key) rfl trivial table (row.branch_of_parent? rfl)
      exact next rfl row above (there.branch_of_parent? rfl)

end Stage

/-! ### Lines of text -/

/-- A text is made of some lines, each of which ends with the only line break in it. -/
def Text.IsLines (text : String) (lines : List String) : Prop :=
  text = String.join (lines.map (· ++ "\n")) ∧ ∀ line ∈ lines, '\n' ∉ line.toList

namespace Outline

/-- A line without its end. -/
def Line.shown (style : Style) (l : Line) : String :=
  String.join ((blocks l.path).map style.block) ++ l.words

/-- No number has a line break. -/
theorem newline_notMem_number (n : Nat) : '\n' ∉ (toString n).toList := by
  intro mem
  have digit := Nat.isDigit_of_mem_toDigits (by decide) (by decide) (Nat.toList_repr ▸ mem)
  cases digit

/-- No line has a line break in it, whatever its label. -/
theorem newline_notMem_shown (style : Style) (l : Line) : '\n' ∉ (l.shown style).toList := by
  have block : ∀ b, '\n' ∉ (style.block b).toList := by
    intro b
    cases style <;> cases b <;> decide
  have name : '\n' ∉ l.role.name.toList := by
    cases l.role <;> decide
  simp only [Line.shown, Line.words, String.toList_append, String.toList_join, List.mem_append,
    List.mem_flatMap, List.mem_map, not_or]
  refine ⟨?_, ⟨⟨⟨name, ?_⟩, ?_⟩, ?_⟩, ?_⟩
  · rintro ⟨_, ⟨b, -, rfl⟩, mem⟩
    exact block b mem
  · cases l.label with
    | none => decide
    | some label =>
      simp only [String.toList_append, List.mem_append, not_or]
      exact ⟨by decide, Text.newline_notMem_quote label⟩
  · cases l.index with
    | none => decide
    | some n =>
      simp only [String.toList_append, List.mem_append, not_or]
      exact ⟨by decide, newline_notMem_number n⟩
  · cases l.id with
    | none => decide
    | some id =>
      simp only [String.toList_append, List.mem_append, not_or]
      exact ⟨⟨by decide, newline_notMem_number id.toNat⟩, by decide⟩
  · split <;> decide

theorem render_isLines (style : Style) (lines : List Line) :
    Text.IsLines (render style lines) (lines.map (Line.shown style)) := by
  refine ⟨?_, ?_⟩
  · rw [List.map_map]
    rfl
  · intro line mem
    obtain ⟨l, -, rfl⟩ := List.mem_map.1 mem
    exact newline_notMem_shown style l

end Outline

/-! ### Lines of a table -/

/-- What the line of a part says, and how far below the table it stands. -/
structure Stage.Shows (s : Stage) (w : World μ) (o : Outline.Options) (x : Nat × Identity)
    (l : Outline.Line) : Prop where
  /-- It stands on its level. -/
  level : l.path.length = x.1
  /-- It has the role of the part. -/
  role : l.role = x.2.role
  /-- It has the label of the part. -/
  label : l.label = s.grid.label x.2
  /-- When keys are shown it has the id of the part's node. -/
  node : ∃ b, s.Finds w x.2 b ∧ l.id = if o.showKeys then some b.key.toRaw else none

/-- Some lines, in the order of what they are about. -/
def Stage.ShowsAll (s : Stage) (w : World μ) (o : Outline.Options) :
    List (Nat × Identity) → List Outline.Line → Prop :=
  List.Forall₂ (s.Shows w o)

variable {o : Outline.Options}

theorem Stage.Shows.since {parts : List Identity} {x : Nat × Identity} {l : Outline.Line}
    (h : s.Shows w o x l) (since : s.Since E parts w w') : s.Shows w' o x l :=
  { h with node := h.node.imp fun _ ⟨found, id⟩ => ⟨since.stays found, id⟩ }

theorem Stage.ShowsAll.since {parts : List Identity} {xs : List (Nat × Identity)}
    {lines : List Outline.Line} (h : s.ShowsAll w o xs lines) (since : s.Since E parts w w') :
    s.ShowsAll w' o xs lines :=
  List.Forall₂.imp (fun _ _ shown => shown.since since) h

theorem Outline.map_withMore (items : List α) : (withMore items).map Prod.snd = items := by
  induction items with
  | nil => rfl
  | cons a rest ih => rw [withMore, List.map_cons, ih]

namespace Act.Brings

open Stage

variable (bears : s.Bears E R)

include bears

/-- Something is read on the way if it is shown. -/
theorem optional {β : Type} {shown : Bool} {act : Act μ β} {other : β} {f : β → Act μ α}
    {Q : α → World μ → Prop} (ready : s.Ready w) (h : act.Brings s E R [] (fun _ _ => True) w)
    (rest : ∀ b {w'}, s.Ready w' → s.Since E [] w w' → (f b).Brings s E R [] Q w') :
    (if shown then act >>= f else Pure.pure other >>= f).Brings s E R [] Q w := by
  split
  · exact h.nil_bind bears fun ready' since _ => rest _ ready' since
  · exact rest _ ready (.of_trees bears ready.toStands rfl)

/-- The line of a node that is there. -/
theorem line (path : List Bool) (ready : s.Ready w) (found : s.Finds w i a)
    (there : s.grid.Includes i) :
    (Outline.line o path a).Brings s E R [] (fun l w' => s.Shows w' o (path.length, i) l) w := by
  unfold Outline.line
  refine (label bears ready found).nil_bind bears ?_
  rintro text w₁ ready₁ since₁ rfl
  have found₁ := since₁.stays found
  refine optional bears ready₁ ((indexInParent bears ready₁ found₁ there).mono fun _ _ _ => trivial)
    fun index {w₂} ready₂ since₂ => ?_
  have found₂ := since₂.stays found₁
  refine optional bears ready₂ ((isValid bears ready₂ found₂).map bears fun _ _ _ => trivial)
    fun gone {w₃} ready₃ since₃ => ?_
  have found₃ := since₃.stays found₂
  exact pure bears ready₃ ⟨rfl, congrArg Identity.role (found₃.identity ready₃.toStands), rfl,
    a, found₃, rfl⟩

/-- The lines of a node that is there and of all below it. -/
theorem linesUnder (all : o.maxDepth = none) (depth : Nat) (path : List Bool) (ready : s.Ready w)
    (found : s.Finds w i a) (there : s.grid.Includes i) :
    (Outline.linesUnder o depth path a).Brings s E R (s.grid.sown depth i)
      (fun lines w' => s.ShowsAll w' o (s.grid.below depth path.length i) lines ∧
        (depth ≠ 0 → i.role = .table → s.grid.Fits)) w := by
  induction depth generalizing path i a w with
  | zero => exact pure bears ready ⟨.nil, nofun⟩
  | succ depth ih =>
    have shown : ¬o.Hides path.length := by
      rintro ⟨max, limited, -⟩
      rw [all] at limited
      cases limited
    unfold Outline.linesUnder
    rw [if_neg shown, Grid.sown]
    refine (line bears path ready found there).nil_bind bears ?_
    intro first w₁ ready₁ since₁ isFirst
    have found₁ := since₁.stays found
    refine (treeChildren bears ready₁ found₁).bind bears ?_
    rintro children w₂ ready₂ since₂ ⟨named, fits⟩
    have branches : (Outline.withMore children).map (fun x => x.2.identity) = s.grid.branches i := by
      rw [← named.identities ready₂.toStands, ← Outline.map_withMore children, List.map_map,
        Outline.map_withMore]
      rfl
    have sown : (s.grid.branches i).flatMap (s.grid.sown depth) =
        (Outline.withMore children).flatMap fun x => s.grid.sown depth x.2.identity := by
      rw [← branches, List.flatMap_map]
    rw [sown]
    refine Brings.bind_nil bears (each bears (fun x lines w' =>
      s.ShowsAll w' o (s.grid.below depth (path.length + 1) x.2.identity) lines) ready₂
      (fun {x lines w w' parts} since shown => ShowsAll.since shown since) ?_) ?_
    · rintro ⟨more, child⟩ w₃ parts mem ready₃ since₃
      have mem : child ∈ children := by
        rw [← Outline.map_withMore children]
        exact List.mem_map.2 ⟨_, mem, rfl⟩
      obtain ⟨branch, isChild⟩ := named.finds ready₂.toStands mem
      have lines := ih (path ++ [more]) ready₃ (since₃.stays isChild)
        (Grid.includes_of_branch branch).1
      rw [List.length_append] at lines
      exact lines.mono fun _ _ shown => shown.1
    · intro below w₃ ready₃ since₃ shown
      refine pure bears ready₃ ⟨.cons ((isFirst.since since₂).since since₃) ?_, fun _ => fits⟩
      rw [← branches, List.flatMap_map]
      exact forall₂_flatMap shown

end Act.Brings

/-! ### One tree -/

/-- A line tells of a node of an update: its id, its label, its role, and how far it is below the
root. -/
structure Outline.Line.Tells (u : Update) (l : Line) (n : NodeId × TreeNode) : Prop where
  /-- The id. -/
  id : l.id = some n.1
  /-- The label, if there is one. -/
  label : l.label = n.2.label
  /-- The role. -/
  role : l.role.toTreeRole = n.2.role
  /-- The depth, which is the only one that the node has. -/
  depth : ∀ d, u.Depth n.1 d ↔ d = l.path.length

/-- A text has one line for each node of an update, in the same order. -/
def Outline.Describes (style : Style) (text : String) (u : Update) : Prop :=
  ∃ lines : List Line, Text.IsLines text (lines.map (Line.shown style)) ∧
    List.Forall₂ (Line.Tells u) lines u.nodes

/-- What was asked for decides what has become of the tree, if the others do nothing to it. -/
theorem Stage.Since.agree {w₁ w₂ : World μ} {parts : List Identity} (h : s.Since Eq parts w w₁)
    (h' : s.Since Eq parts w w₂) : w₁.trees[s.tree]? = w₂.trees[s.tree]? := by
  obtain ⟨tree, tree₁, ht, ht₁, grows⟩ := h.grows
  obtain ⟨tree', tree₂, ht', ht₂, grows'⟩ := h'.grows
  rw [ht] at ht'
  cases ht'
  rw [ht₁, ht₂, grows.unique grows']

/-- Where all that was asked for found room it finds room again, from the same state. -/
theorem Stage.Outcome.of_since {w₁ w₂ : World μ} {parts : List Identity} {Q : α → World μ → Prop}
    {result : Except Panic α} (h : s.Outcome Eq parts Q w result w₂) (fits : s.grid.Fits)
    (since : s.Since Eq parts w w₁) (own : ∀ i ∈ parts, i.tableKey = s.key) :
    ∃ a, result = .ok a ∧ s.Ready w₂ ∧ s.Since Eq parts w w₂ ∧ Q a w₂ := by
  cases h with
  | value ready since' holds => exact ⟨_, rfl, ready, since', holds⟩
  | noList long => exact absurd fits long
  | @noNode _ before after i asked since' full missing =>
    -- up to the part it stopped at it had asked for the same as the other, which went on from there
    subst asked
    obtain ⟨tree, tree₁, ht, -, grows⟩ := since.grows
    obtain ⟨tree', tree₂, ht', ht₂, grows'⟩ := since'.grows
    rw [ht] at ht'
    cases ht'
    obtain ⟨tree₂', ht₂', next⟩ := full
    rw [ht₂] at ht₂'
    cases ht₂'
    have free : tree₂.find? i = none := Option.eq_none_iff_forall_ne_some.2 fun a found =>
      missing a ⟨own i (List.mem_append_right _ List.mem_cons_self), tree₂, ht₂, found⟩
    exact absurd next (grows'.goes_on grows free)

/-- The lines of the whole table tell of its update. -/
theorem Stage.ShowsAll.tells {lines : List Outline.Line} (keys : o.showKeys = true)
    (shown : s.ShowsAll w o (s.grid.below Adapter.levels 0 (.table s.key)) lines)
    (h : s.Serializes w u) (stands : s.Stands w) :
    List.Forall₂ (Outline.Line.Tells u) lines u.nodes := by
  have nodes : u.nodes = (s.grid.below Adapter.levels 0 (.table s.key)).map fun x =>
      (s.nodeId w x.2, s.grid.written (s.nodeId w) x.2) := by
    rw [h.update, Grid.update, ← Grid.below_table, List.map_map]
    rfl
  have known : ∀ x ∈ s.grid.below Adapter.levels 0 (.table s.key),
      x.1 = x.2.depth ∧ s.grid.Includes x.2 ∧ x.2.tableKey = s.key := fun x hx =>
    ⟨Grid.depth_of_below (i := .table s.key) hx, Grid.Includes.below (i := .table s.key) trivial hx⟩
  have both := (List.forall₂_and_left _ _).2 ⟨known, shown⟩
  rw [nodes, List.forall₂_map_right_iff]
  refine List.Forall₂.flip (both.imp ?_)
  rintro x l ⟨⟨level, there, own⟩, line⟩
  obtain ⟨b, found, id⟩ := line.node
  refine ⟨?_, ?_, ?_, fun d => ?_⟩
  · rw [id, if_pos keys, found.nodeId]
  · rw [line.label, Grid.written_label]
  · rw [line.role, Grid.written_role]
  · rw [line.level, level, h.depth stands own there]

/-- **The outline and the update of a table describe one tree.** Let the contents of a table stay, and
nobody else do anything to its tree. If an outline that shows keys and all levels finds room for the
nodes, so does the update that is made from the same state; and the outline has a line for each node of
the update, in the same order, with the node's id, its label in quotes and its role, as deep as the node
is below the root. No label can break a line. -/
theorem outline_describes_the_update {m : Moment μ} (h : m.Lived) (set : s.Set m)
    (stored : s.Stores m.world a) (isTable : a.role = .table) (keys : o.showKeys = true)
    (all : o.maxDepth = none) :
    (outlineUnder o a).Brings s Eq (s.Calm Eq) (s.grid.sown Adapter.levels (.table s.key))
      (fun text _ => (buildTreeUpdate s.tree s.key m.world).ComesTo (s.Calm Eq) fun result _ =>
        ∃ u, result = .ok (some u) ∧ Outline.Describes o.style text u) m.world := by
  have bears := Stage.Calm.bears_eq (μ := μ) s
  have ready := set.ready h
  have root : s.Finds m.world (.table s.key) a := by
    have found := stored.finds ready.toStands
    rw [Identity.eq_of_role_table isTable] at found
    exact found.own ▸ found
  unfold outlineUnder
  rw [← map_eq_pure_bind]
  refine (Act.Brings.linesUnder bears all Adapter.levels [] ready root trivial).map bears ?_
  rintro lines w₁ ready₁ since₁ ⟨shown, fits⟩
  refine (Act.Brings.buildTreeUpdate bears ready root).comes.mono ?_
  intro result w₂ outcome
  obtain ⟨_, rfl, ready₂, since₂, u, rfl, serializes⟩ := outcome.of_since
    (fits (Nat.succ_ne_zero _) rfl) since₁
    fun i mem => (Grid.Includes.sown (i := .table s.key) trivial mem).2
  -- the walks asked for the same nodes in the same order, so they have left the same tree
  have later : s.Since Eq [] w₁ w₂ := .of_trees bears ready₁.toStands (since₂.agree since₁)
  exact ⟨u, rfl, lines, Outline.render_isLines o.style lines,
    (shown.since later).tells keys serializes ready₂.toStands⟩

/-- So it is for a table with one cell, which holds two lines of text. -/
theorem outline_describes_the_update_cell :
    ∃ (m : Moment Unit) (s : Stage) (a : Adapter) (text : String) (u : Update) (w w' : World Unit),
      m.Lived ∧ s.Set m ∧ s.Stores m.world a ∧ a.role = .table ∧ s.grid.rows = [["one\ntwo"]] ∧
      outlineUnder .default a m.world = .done (.ok text) w ∧
      buildTreeUpdate s.tree s.key m.world = .done (.ok (some u)) w' ∧ u.nodes.length = 4 ∧
      Outline.Describes .unicode text u := by
  obtain ⟨m, lived, e, set⟩ := Stage.set_attached (g := ⟨"", ["h"], [["one\ntwo"]]⟩)
    (by simp [Grid.Rectangular]) () (.toolkit 0)
  have stored : (⟨0, Arena.keyAt 0 1, 0, 0, 0, ⟨"", ["h"], [["one\ntwo"]]⟩⟩ : Stage).Stores m.world
      ⟨Arena.keyAt 0 1, .table (Arena.keyAt 0 1), none, 0, 0⟩ := ⟨rfl, _, by rw [e]; rfl, rfl⟩
  have outlined : (outlineUnder .default ⟨Arena.keyAt 0 1, .table (Arena.keyAt 0 1), none, 0, 0⟩
      m.world).value?.isSome = true := by
    rw [e]
    decide +kernel
  have updated : ((buildTreeUpdate 0 (Arena.keyAt 0 1) m.world).value?.map fun result =>
      result.map fun u => u.nodes.length) = some (some 4) := by
    rw [e]
    decide +kernel
  obtain ⟨text, value⟩ := Option.isSome_iff_exists.1 outlined
  obtain ⟨result, value', length⟩ := Option.map_eq_some_iff.1 updated
  obtain ⟨w, run, -, update⟩ :=
    (outline_describes_the_update (o := .default) lived set stored rfl rfl rfl).of_value value
  obtain ⟨w', run', u, same, describes⟩ := update.of_value value'
  cases same
  exact ⟨m, _, _, text, u, w, w', lived, set, stored, rfl, rfl, run, run', Option.some.inj length,
    describes⟩

end TableAccess
