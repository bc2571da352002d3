import TableAccess.Proofs.Branches
import TableAccess.Proofs.Shadowing
import TableAccess.Proofs.Uprooting

/-!
# Outlines with a limit

An outline with a limit shows the lines of the outline without one, but for those of the nodes that are
deeper, and each says the same to the letter. What is hidden is not drawn at all, so fewer nodes may get
made; but the children of whatever is shown are listed either way. If nodes below the tables are shown, all
nodes that can be made are children of what is shown, so they are made in the same order and get the same
keys. If only tables are shown, the trees of both outlines may differ from the first table on; but what is
said of a table is read from the table, and its key is an old one.

## The model

* `Drawn.Sits`, `Outline.Cut` — the nodes drawn with a limit and without one.
* `drawUnder_hidden`, `drawUnder_shown` — what is drawn of a node side by side.
* `Drawing.upTo` — a drawing without what is deeper than a limit; `lineUpTo` — the lines it has.
* `Outline.Limits`, `limits_only_hide_lines` — the main statement.
-/

namespace TableAccess

variable {μ α : Type} {x : Gallery} {a : Adapter} {tree : Tree}

namespace Outline

variable {o : Options} {style : Style} {way : List Place} {es es₀ : List Drawn} {e : Drawn} {max : Nat}

/-! ### What is drawn with a limit -/

/-- The same options with another limit, or without one. -/
def Options.limited (o : Options) (max : Option Nat) : Options := { o with maxDepth := max }

theorem not_hides_unlimited (depth : Nat) : ¬(o.limited none).Hides depth := by
  rintro ⟨max, none, -⟩
  cases none

theorem hides_limited {depth : Nat} : (o.limited (some max)).Hides depth ↔ max < depth := by
  constructor
  · rintro ⟨_, same, less⟩
    cases same
    exact less
  · exact fun less => ⟨max, rfl, less⟩

/-- The limit does not matter to a line. -/
theorem line_limited (limit : Option Nat) (path : List Bool) (a : Adapter) :
    (line (o.limited limit) path a : Act μ Line) = line o path a := rfl

/-- A node was drawn as far down as it is in its table, and what is said of it stays on one line. -/
structure Drawn.Sits (e : Drawn) : Prop where
  /-- So far down it was drawn. -/
  depth : e.depth = e.node.identity.depth
  /-- It stays on one line. -/
  oneLine : '\n' ∉ e.rest.toList

/-- What was drawn with a limit has the lines of what was drawn without one, but for those of the nodes that
are deeper. -/
structure Cut (style : Style) (max : Nat) (es es₀ : List Drawn) : Prop where
  /-- The other lines are the same. -/
  kept : es₀.map (Drawn.shown style) =
    (es.filter fun e => decide (e.depth ≤ max)).map (Drawn.shown style)
  /-- The nodes are where they were drawn. -/
  sits : ∀ e ∈ es, e.Sits

namespace Cut

/-- All of it is hidden. -/
theorem hidden (deeper : ∀ e ∈ es, max < e.depth ∧ e.Sits) : Cut style max es [] where
  kept := by
    rw [List.filter_eq_nil_iff.2 fun e mem => by simpa using (deeper e mem).1]
  sits e mem := (deeper e mem).2

/-- First one node, which is shown, and then what is below it. -/
theorem cons {e₀ : Drawn} (same : e₀.shown style = e.shown style) (shown : e.depth ≤ max)
    (sits : e.Sits) (below : Cut style max es es₀) : Cut style max (e :: es) (e₀ :: es₀) where
  kept := by
    rw [List.filter_cons_of_pos (by simpa using shown), List.map_cons, List.map_cons, same, below.kept]
  sits := List.forall_mem_cons.2 ⟨sits, below.sits⟩

/-- One after the other. -/
theorem flatten {ess ess₀ : List (List Drawn)} (h : List.Forall₂ (Cut style max) ess ess₀) :
    Cut style max ess.flatten ess₀.flatten := by
  induction h with
  | nil => exact ⟨rfl, fun e mem => by cases mem⟩
  | cons first _ ih =>
    refine ⟨?_, fun e mem => ?_⟩
    · rw [List.flatten_cons, List.flatten_cons, List.map_append, List.filter_append, List.map_append,
        first.kept, ih.kept]
    · exact (List.mem_append.1 mem).elim (first.sits e) (ih.sits e)

end Cut

/-! ### Nodes side by side -/

/-- What lies deeper than the limit lists its children alone: it has none, or the trees may differ. -/
theorem treeChildren_alone (node : x.Node a) (hidden : max < a.identity.depth) :
    (a.treeChildren : Act μ _).Alone x (1 ≤ max) fun children =>
      ∀ b ∈ children, x.Node b ∧ b.identity.depth = a.identity.depth + 1 := by
  by_cases deep : 1 ≤ max
  · have none : (a.treeChildren : Act μ _) = pure [] := by
      unfold Adapter.treeChildren Adapter.children
      revert hidden
      cases a.identity with
      | cell | column => exact fun _ => rfl
      | table | row =>
        intro hidden
        simp only [Identity.depth] at hidden
        omega
    rw [none]
    exact .pure fun b mem => by cases mem
  · exact .of_shadows (Adapter.treeChildren_shadows node) deep fun children b mem => children.node mem

/-- A node sits where it is drawn. -/
theorem Drawn.Sits.of_length {children : List Adapter} {rest : String}
    (length : way.length = a.identity.depth + 1) (oneLine : '\n' ∉ rest.toList) :
    (Drawn.mk way a children rest).Sits :=
  ⟨by rw [Drawn.depth, length]; rfl, oneLine⟩

/-- What is hidden is drawn without a limit all the same. -/
theorem drawUnder_hidden {levels : Nat} (node : x.Node a) (length : way.length = a.identity.depth + 1)
    (hidden : max < a.identity.depth) : (drawUnder (o.limited none) levels way a : Act μ _).Alone x
      (1 ≤ max) fun es => ∀ e ∈ es, max < e.depth ∧ e.Sits := by
  induction levels generalizing way a with
  | zero => exact .pure fun e mem => by cases mem
  | succ levels ih =>
    unfold drawUnder
    rw [if_neg (not_hides_unlimited _)]
    have line : (Line.rest <$> line (o.limited none) [] a : Act μ _).Alone x (1 ≤ max) fun rest =>
        '\n' ∉ rest.toList := (Act.Alone.constant (line_constant node _ [])).map fun l _ =>
      l.newline_notMem_rest
    refine line.bind fun rest oneLine => ?_
    refine (treeChildren_alone node hidden).bind fun children below => ?_
    refine (Act.Alone.each (Q := fun es => ∀ e ∈ es, max < e.depth ∧ e.Sits) ?_).bind
      fun ess drawn => .pure ?_
    · rintro ⟨place, b⟩ listed
      obtain ⟨node', depth⟩ := below b (List.mem_of_getElem? (mem_places.1 listed).2)
      exact ih node' (by rw [List.length_append, length, depth]; rfl) (by omega)
    · have sits : (Drawn.mk way a children rest).Sits := .of_length length oneLine
      refine List.forall_mem_cons.2 ⟨⟨?_, sits⟩, fun e mem => ?_⟩
      · rw [sits.depth]
        exact hidden
      · obtain ⟨es, listed, mem⟩ := List.mem_flatten.1 mem
        exact drawn es listed e mem

theorem each_pure {items : List α} {β : Type} (b : β) :
    (Act.each items fun _ => pure b : Act μ (List β)) = pure (items.map fun _ => b) := by
  induction items with
  | nil => rfl
  | cons c rest ih => rw [Act.each_cons, ih, pure_bind, pure_bind, List.map_cons]

/-- With the limit nothing is drawn of it. -/
theorem drawUnder_limited_hidden {levels : Nat} (hidden : max < way.length - 1) :
    (drawUnder (o.limited (some max)) levels way a : Act μ _) = pure [] := by
  cases levels with
  | zero => rfl
  | succ levels =>
    unfold drawUnder
    exact if_pos (hides_limited.2 hidden)

/-- Children that are hidden are drawn on one side alone. -/
theorem drawChildren_hidden {levels : Nat} {children children₀ : List Adapter} (hidden : max < way.length)
    (nodes : ∀ b ∈ children, x.Node b ∧ b.identity.depth = way.length) :
    (Act.each (places children) fun (place, child) =>
        drawUnder (o.limited none) levels (way ++ [place]) child : Act μ _).Shadows x (1 ≤ max)
      (Act.each (places children₀) fun (place, child) =>
        drawUnder (o.limited (some max)) levels (way ++ [place]) child)
      fun ess ess₀ => Cut style max ess.flatten ess₀.flatten := by
  have nothing : (Act.each (places children₀) fun (place, child) =>
      drawUnder (o.limited (some max)) levels (way ++ [place]) child : Act μ _) =
        pure ((places children₀).map fun _ => []) := by
    rw [← each_pure]
    congr 1
    funext y
    exact drawUnder_limited_hidden (by rw [List.length_append]; exact hidden)
  rw [nothing]
  refine ((Act.Alone.each (Q := fun es => ∀ e ∈ es, max < e.depth ∧ e.Sits) ?_).beside _).mono ?_
  · rintro ⟨place, b⟩ listed
    obtain ⟨node, depth⟩ := nodes b (List.mem_of_getElem? (mem_places.1 listed).2)
    exact drawUnder_hidden node (by rw [List.length_append, depth]; rfl) (by rw [depth]; exact hidden)
  · rintro ess _ ⟨deeper, rfl⟩
    have flat : ((places children₀).map fun _ => ([] : List Drawn)).flatten = [] := by simp
    rw [flat]
    refine .hidden fun e mem => ?_
    obtain ⟨es, mem', here⟩ := List.mem_flatten.1 mem
    exact deeper es mem' e here

/-- A node that is shown is drawn with a limit and without one. -/
theorem drawUnder_shown {levels : Nat} (node : x.Node a) (length : way.length = a.identity.depth + 1)
    (shown : a.identity.depth ≤ max) : (drawUnder (o.limited none) levels way a : Act μ _).Shadows x
      (1 ≤ max) (drawUnder (o.limited (some max)) levels way a) (Cut style max) := by
  induction levels generalizing way a with
  | zero => exact .pure ⟨rfl, fun e mem => by cases mem⟩
  | succ levels ih =>
    have depth : way.length - 1 = a.identity.depth := by rw [length]; rfl
    unfold drawUnder
    rw [if_neg (not_hides_unlimited _), if_neg (by rw [hides_limited, depth]; omega), line_limited,
      line_limited]
    have line : (Line.rest <$> line o [] a : Act μ _).Shadows x (1 ≤ max) (Line.rest <$> line o [] a)
        fun rest rest₀ => rest₀ = rest ∧ '\n' ∉ rest.toList := by
      refine (Act.Shadows.constant (line_constant node o [])).map ?_
      rintro l - rfl
      exact ⟨rfl, l.newline_notMem_rest⟩
    refine line.bind ?_
    rintro rest rest₀ ⟨same, oneLine⟩
    rw [same]
    refine (Adapter.treeChildren_shadows node).bind fun {children children₀} listed => ?_
    have nodes : ∀ b ∈ children, x.Node b ∧ b.identity.depth = way.length := fun b mem =>
      length ▸ listed.node mem
    have sits : (Drawn.mk way a children rest).Sits := .of_length length oneLine
    refine Act.Shadows.bind (Q := fun ess ess₀ => Cut style max ess.flatten ess₀.flatten) ?_
      fun below => .pure (.cons rfl (by rw [sits.depth]; exact shown) sits below)
    by_cases next : way.length ≤ max
    · -- the children are shown, and are the same for both
      rw [listed.eq (by omega)]
      refine (Act.Shadows.each ?_).mono Cut.flatten
      rintro ⟨place, b⟩ mem
      obtain ⟨node', deeper⟩ := nodes b (List.mem_of_getElem? (mem_places.1 mem).2)
      exact ih node' (by rw [List.length_append, deeper]; rfl) (by rw [deeper]; exact next)
    · exact drawChildren_hidden (by omega) nodes

/-- So it is for the nodes that an outline begins with. -/
theorem drawEach_shown {tops : List Adapter} (nodes : ∀ a ∈ tops, x.Node a ∧ a.identity.depth = 0) :
    (drawEach (o.limited none) tops : Act μ _).Shadows x (1 ≤ max)
      (drawEach (o.limited (some max)) tops) (Cut style max) := by
  refine (Act.Shadows.each ?_).map Cut.flatten
  rintro ⟨place, a⟩ listed
  obtain ⟨node, top⟩ := nodes a (List.mem_of_getElem? (mem_places.1 listed).2)
  exact drawUnder_shown node (by rw [top]; rfl) (by rw [top]; exact Nat.zero_le max)

/-! ### Outlines side by side -/

/-- A drawing without what is deeper than a limit. -/
def Drawing.upTo (max : Nat) (d : Drawing) : Drawing :=
  { d with nodes := d.nodes.filter fun e => decide (e.depth ≤ max) }

/-- A line is that of no deeper node. -/
def lineUpTo (max : Nat) (line : String) : Bool :=
  (readLine line.toList).all fun (depth, _) => decide (depth ≤ max)

/-- The lines that are left are known from the text alone. -/
theorem Drawing.lines_upTo (style : Style) {d : Drawing} (head : ∀ l ∈ d.head, readLine l.toList = none) :
    (d.upTo max).lines style = (d.lines style).filter (lineUpTo max) := by
  have kept : d.head.filter (lineUpTo max) = d.head := List.filter_eq_self.2 fun l mem => by
    rw [lineUpTo, head l mem]
    rfl
  have shallow : (lineUpTo max) ∘ Drawn.shown style = fun e => decide (e.depth ≤ max) := by
    funext e
    rw [Function.comp, lineUpTo, e.readLine_shown]
    rfl
  rw [Drawing.lines, Drawing.lines, List.filter_append, kept, List.filter_map, shallow]
  rfl

/-- What is drawn with a limit is cut from what is drawn without one. -/
structure Drawing.Cut (style : Style) (max : Nat) (d d₀ : Drawing) : Prop where
  /-- The lines in front do not look like nodes. -/
  head : ∀ l ∈ d.head, '\n' ∉ l.toList ∧ readLine l.toList = none
  /-- The nodes are where they were drawn. -/
  sits : ∀ e ∈ d.nodes, e.Sits
  /-- The lines are those of the nodes that are not deeper. -/
  lines : d₀.lines style = (d.upTo max).lines style

end Outline

theorem Act.Runs.getTree : (getTree x.tree : Act μ Tree).Runs x tree (.ok tree) tree :=
  .of_done fun ready => ⟨_, getTree_run ready.planted, ready⟩

namespace Outline

variable {o : Options} {max : Nat} {m : Moment μ}

/-- So it is for the tables of a tree. -/
theorem drawAll_shown (holds : x.Holds tree)
    (tops : ∀ a ∈ tree.tables, x.Node a ∧ a.identity.depth = 0) :
    (drawAll (o.limited none) x.tree : Act μ _).Both x (1 ≤ max) (drawAll (o.limited (some max)) x.tree)
      (Drawing.Cut o.style max) tree tree := by
  unfold drawAll
  have drawEach : (drawEach (o.limited none) tree.tables : Act μ _).Shadows x (1 ≤ max)
      (drawEach (o.limited (some max)) tree.tables) (Cut o.style max) := drawEach_shown tops
  cases drawEach.both ⟨holds, holds, .refl tree, fun _ => rfl⟩ with
  | values runs runs₀ abreast grows cut =>
    refine .values (Act.Runs.getTree.bind (runs.bind (.pure _)))
      (Act.Runs.getTree.bind (runs₀.bind (.pure _))) abreast grows ⟨fun _ => headLines_unread, cut.sits, ?_⟩
    exact congrArg (headLines tree.size tree.tables.length ++ ·) cut.kept
  | panics runs cramped => exact .panics (Act.Runs.getTree.bind runs.panics) cramped

/-- What an outline begins with are the tables. -/
theorem node_of_mem_tables (h : m.Lived) (set : x.Set m tree) (mem : a ∈ tree.tables) :
    x.Node a ∧ a.identity.depth = 0 := by
  have stored := (set.holds h).indexed.get?_of_mem_tables mem
  have isTable : a.identity.role = .table := of_decide_eq_true (List.mem_filter.1 mem).2
  have own := h.keyed.own (h.keyed.stored set.planted stored) (Identity.eq_of_role_table isTable)
  refine ⟨(set.holds h).nodes stored (own ▸ set.keys.2 ⟨a, stored, isTable⟩), ?_⟩
  rw [Identity.eq_of_role_table isTable]
  rfl

/-- What an outline with a limit and one without come to when they begin in the same state. Either there is
no room for the one without, or this holds of the two. -/
inductive Limits (x : Gallery) (o : Options) (max : Nat) (w : World μ) : Prop where
  /-- The one with a limit has the lines of the other that are not those of deeper nodes. -/
  | shown (d : Drawing)
      (drawn : (drawAll (o.limited none) x.tree w).ComesTo x.Calm fun r _ => r = .ok d)
      (sits : ∀ e ∈ d.nodes, e.depth = e.node.identity.depth)
      (lines : Text.IsLines (d.text o.style) (d.lines o.style))
      (all : (outlineAll (o.limited none) x.tree w).ComesTo x.Calm fun r _ => r = .ok (d.text o.style))
      (limited : (outlineAll (o.limited (some max)) x.tree w).ComesTo x.Calm fun r _ =>
        r = .ok ((d.upTo max).text o.style))
      (hides : (d.upTo max).lines o.style = (d.lines o.style).filter (lineUpTo max)) : Limits x o max w
  /-- The one without a limit finds no room for a list of nodes, or for a node. -/
  | cramped (panic : Panic)
      (all : (outlineAll (o.limited none) x.tree w).ComesTo x.Calm fun r _ => r = .error panic)
      (cramped : panic = Room.overflow ∨ panic = treeFull) : Limits x o max w

/-- **A limit only hides lines.** Take any tree that can come to be. The tables attached to it are editable
and bound to nothing but its context, though some may be dropped or disposed of; they stay as they are, and
the context responds. Then the outline with a limit, in any style and whatever it shows, is the outline
without one less the lines of the nodes that are deeper. The lines that are left are the same to the letter,
with their branches, positions and keys, those of new nodes among them. -/
theorem limits_only_hide_lines (h : m.Lived) (set : x.Set m tree) (o : Options) (max : Nat) :
    Limits x o max m.world := by
  have ready := set.ready h
  have outlined : ∀ {limit : Option Nat} {d : Drawing} {tree' : Tree},
      (drawAll (o.limited limit) x.tree : Act μ _).Runs x tree (.ok d) tree' →
        (outlineAll (o.limited limit) x.tree m.world).ComesTo x.Calm fun r _ =>
          r = .ok (d.text o.style) := by
    intro limit d tree' runs
    rw [outlineAll_drawn]
    exact ((runs.map _).comes ready).mono fun value => value.1
  have both : (drawAll (o.limited none) x.tree : Act μ _).Both x (1 ≤ max)
      (drawAll (o.limited (some max)) x.tree) (Drawing.Cut o.style max) tree tree :=
    drawAll_shown (set.holds h) fun _ => node_of_mem_tables h set
  cases both with
  | @values d d₀ _ _ runs runs₀ _ _ cut =>
    refine .shown d ?_ (fun e mem => (cut.sits e mem).depth) ?_ (outlined runs) ?_ ?_
    · exact (runs.comes ready).mono fun value => value.1
    · exact Drawing.isLines _ (fun l mem => (cut.head l mem).1) fun e mem => (cut.sits e mem).oneLine
    · have text : d₀.text o.style = (d.upTo max).text o.style := by
        rw [Drawing.text, cut.lines]
        rfl
      exact text ▸ outlined runs₀
    · exact Drawing.lines_upTo _ fun l mem => (cut.head l mem).2
  | panics runs cramped =>
    refine .cramped _ ?_ cramped
    rw [outlineAll_drawn, map_eq_pure_bind]
    exact (runs.panics.comes ready).mono fun value => value.1

/-! ### Two tables -/

/-- The world in which the first few of two tables are attached. -/
def attachedUpTo (n : Nat) : World Unit :=
  { World.unattached with
    peers := (List.range n).map fun t => ⟨t, 0, false⟩
    trees := [(List.range n).foldl (fun tree t =>
      tree.add ⟨Arena.keyAt t 1, .table (Arena.keyAt t 1), none, t, 0⟩) (.empty 0)] }

/-- It can come to be with both of them. -/
theorem lived_attachedUpTo_two : ∃ m : Moment Unit, m.Lived ∧ m.world = attachedUpTo 2 := by
  obtain ⟨⟨past, world⟩, lived, e, -⟩ := Moment.lived_unattached
  cases e
  have first : Moment.Step ⟨past, attachedUpTo 0⟩ ⟨_, attachedUpTo 1⟩ :=
    .trees (@TreeStep.attach Unit ⟨past, attachedUpTo 0⟩ 0 _ 0 (Arena.keyAt 0 1) rfl Nat.two_pos rfl rfl)
  have second : ∀ past, ∃ past', Moment.Step ⟨past, attachedUpTo 1⟩ ⟨past', attachedUpTo 2⟩ :=
    fun past => ⟨_, .trees (@TreeStep.attach Unit ⟨past, attachedUpTo 1⟩ 0 _ 1 (Arena.keyAt 1 1) rfl
      Nat.one_lt_two rfl rfl)⟩
  obtain ⟨_, second⟩ := second _
  exact ⟨_, (lived.goes first.goes).goes second.goes, rfl⟩

/-- So it is for two tables with one cell each: the cells are hidden, but the row and the column that come
after them have the keys they have without a limit. -/
theorem limits_only_hide_lines_two : ∃ (m : Moment Unit) (x : Gallery) (tree : Tree),
    m.Lived ∧ x.Set m tree ∧ x.tree = 0 ∧ Limits x ⟨.ascii, true, false, false, none⟩ 1 m.world ∧
      (outlineAll ⟨.ascii, true, false, false, none⟩ 0 m.world).value? =
        some (String.join (["Adapter Tree (2 adapters):", "table [4294967297]", "+-- row [4294967299]",
          "|   `-- cell \"x\" [4294967301]", "`-- column \"h\" [4294967300]", "table [4294967298]",
          "+-- row [4294967302]", "|   `-- cell \"x\" [4294967304]",
          "`-- column \"h\" [4294967303]"].map (· ++ "\n"))) ∧
      (outlineAll ⟨.ascii, true, false, false, some 1⟩ 0 m.world).value? =
        some (String.join (["Adapter Tree (2 adapters):", "table [4294967297]", "+-- row [4294967299]",
          "`-- column \"h\" [4294967300]", "table [4294967298]", "+-- row [4294967302]",
          "`-- column \"h\" [4294967303]"].map (· ++ "\n"))) := by
  obtain ⟨m, lived, e⟩ := lived_attachedUpTo_two
  obtain ⟨tree, planted⟩ : ∃ tree, m.world.trees[0]? = some tree := ⟨_, by rw [e]; rfl⟩
  have context : tree.context = 0 := by
    rw [e] at planted
    cases planted
    rfl
  have set : (m.world.gallery 0 tree).Set m tree := by
    refine World.gallery_set planted ?_ fun {p peer table} _ hp there => ?_
    · rw [e, context]
      exact ⟨.start .default, rfl, fun other => absurd rfl other⟩
    · rw [e] at hp there
      match p with
      | 0 | 1 =>
        cases hp
        cases there
        exact ⟨_, rfl, rfl⟩
      | _ + 2 => cases hp
  refine ⟨m, _, tree, lived, set, rfl, limits_only_hide_lines lived set _ 1, ?_, ?_⟩
  · rw [e]
    decide +kernel
  · rw [e]
    decide +kernel

end Outline

end TableAccess
