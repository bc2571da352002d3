import TableAccess.Proofs.Drawings

/-!
# Branches

The blocks in front of the lines of an outline say where each node stands. Whoever has nothing but the
text counts them to find how deep a node is, looks for its parent among the lines above, and sees from
the last block whether a sibling follows; no label can get in the way.

## The model

* `Outline.readLine`, `Outline.read` — how deep each node is and whether it is a last child, from the
  text alone.
* `Outline.NearestAbove` — the nearest line above that is less deep.
* `Drawing` — an outline as it was drawn; `Drawing.Legible` — its nodes can be read back.
* `branches_mirror_the_tree` — the main statement.
-/

namespace TableAccess

variable {μ : Type} {m : Moment μ} {a : Adapter}

namespace Outline

variable {o : Options} {way : List Place} {siblings : List Adapter} {es : List Drawn} {e p : Drawn}
  {j k : Nat}

/-! ### Reading a line -/

/-- How many characters a block has. -/
def Style.width : Style → Nat
  | .ascii | .unicode => 4
  | .compact => 2

/-- The characters blocks are made of. -/
def strokes : List Char := [' ', '|', '+', '-', '\x60', '│', '├', '─', '└']

/-- What the blocks in front of a line say: how deep the node is, and if they are drawn whether it is a
last child. -/
def readBlocks (marks : List Char) : Nat × Option Bool :=
  if marks.all (· = ' ') then (marks.length / 2, none)
  else (marks.length / 4, (marks[marks.length - 4]?).map fun c => c = '\x60' ∨ c = '└')

/-- The line of a node is read up to the name of its role. Other lines are not read. -/
def readLine (line : List Char) : Option (Nat × Option Bool) :=
  match line.dropWhile (· ∈ strokes) with
  | c :: _ => if c.isLower then some (readBlocks (line.takeWhile (· ∈ strokes))) else none
  | [] => none

/-- For each node of an outline how deep it is, and if branches are drawn whether it is a last child. -/
def read (text : String) : List (Nat × Option Bool) :=
  (text.toList.splitOn '\n').filterMap readLine

namespace Drawn

/-- Whether it is a last child, if the style shows it. -/
def last? (style : Style) (e : Drawn) : Option Bool :=
  if style = .compact ∨ e.depth = 0 then none else e.way.getLast?.map fun p => ¬p.HasMore

theorem blocks_length (e : Drawn) : e.blocks.length = e.depth := by
  simp [blocks, depth]

/-- The last block is the branch of the node itself. -/
theorem blocks_last (below : e.depth ≠ 0) : ∃ place before, e.way.getLast? = some place ∧
    e.blocks = before ++ [if place.HasMore then .tee else .elbow] := by
  rcases List.eq_nil_or_concat e.way with none | ⟨above, place, way_eq⟩
  · simp [depth, none] at below
  · rw [List.concat_eq_append] at way_eq
    have depth_eq : e.depth = above.length := by simp [depth, way_eq]
    have top : 1 - above.length = 0 := by omega
    refine ⟨place, (above.zipIdx.drop 1).map fun x => e.block x.1 x.2,
      by rw [way_eq, List.getLast?_concat], ?_⟩
    rw [blocks, way_eq, List.zipIdx_append, List.drop_append, List.map_append]
    simp [depth_eq, top, block]

/-- The characters in front of the line. -/
def marks (style : Style) (e : Drawn) : List Char := e.blocks.flatMap fun b => (style.block b).toList

theorem mem_strokes_of_mem_marks {style : Style} {c : Char} (mem : c ∈ e.marks style) :
    c ∈ strokes := by
  obtain ⟨b, -, mem⟩ := List.mem_flatMap.1 mem
  have all : (style.block b).toList.all (· ∈ strokes) = true := by
    cases style <;> cases b <;> decide
  exact of_decide_eq_true (List.all_eq_true.1 all c mem)

end Drawn

theorem Style.block_length (style : Style) (b : Block) : (style.block b).toList.length = style.width := by
  cases style <;> cases b <;> rfl

theorem Drawn.marks_length (style : Style) (e : Drawn) :
    (e.marks style).length = e.depth * style.width := by
  rw [marks, List.length_flatMap]
  simp only [Style.block_length, List.map_const', List.sum_replicate_nat, blocks_length]

/-- Where branches are drawn, the first character of the own block of a node tells whether a sibling
follows. -/
theorem Style.branch_toList {style : Style} (drawn : style ≠ .compact) (more : Prop) [Decidable more] :
    ∃ c rest, (style.block (if more then .tee else .elbow)).toList = c :: rest ∧ c ≠ ' ' ∧
      (c = '\x60' ∨ c = '└' ↔ ¬more) := by
  by_cases h : more
  · rw [if_pos h]
    cases style with
    | compact => exact absurd rfl drawn
    | ascii | unicode => exact ⟨_, _, rfl, by decide, iff_of_false (by decide) (not_not_intro h)⟩
  · rw [if_neg h]
    cases style with
    | compact => exact absurd rfl drawn
    | ascii | unicode => exact ⟨_, _, rfl, by decide, iff_of_true (by decide) h⟩

/-- From the blocks in front of a node it is read how deep it is, and whether it is a last child. -/
theorem readBlocks_marks (style : Style) (e : Drawn) :
    readBlocks (e.marks style) = (e.depth, e.last? style) := by
  have length := e.marks_length style
  by_cases plain : style = .compact ∨ e.depth = 0
  · have spaces : (e.marks style).all (· = ' ') = true := by
      rcases plain with rfl | top
      · refine List.all_eq_true.2 fun c mem => ?_
        obtain ⟨b, -, mem⟩ := List.mem_flatMap.1 mem
        cases b <;> simpa [Style.block] using mem
      · have none : e.marks style = [] :=
          List.eq_nil_of_length_eq_zero (by rw [length, top, Nat.zero_mul])
        rw [none]
        rfl
    rw [readBlocks, if_pos spaces, Drawn.last?, if_pos plain, length]
    rcases plain with rfl | top
    · rw [Style.width, Nat.mul_div_cancel _ (by decide)]
    · rw [top, Nat.zero_mul]
  · obtain ⟨drawn, below⟩ := not_or.1 plain
    obtain ⟨place, before, own, blocks⟩ := Drawn.blocks_last below
    obtain ⟨c, rest, branch, notSpace, tells⟩ := Style.branch_toList drawn place.HasMore
    have wide : style.width = 4 := by cases style <;> first | rfl | exact absurd rfl drawn
    have marks : e.marks style = (before.flatMap fun b => (style.block b).toList) ++ c :: rest := by
      rw [Drawn.marks, blocks, List.flatMap_append, List.flatMap_singleton, branch]
    have stroke : (e.marks style).all (· = ' ') = false := by
      rw [marks]
      simp [notSpace]
    have width : (c :: rest).length = 4 := by rw [← branch, Style.block_length, wide]
    have first : (e.marks style)[(e.marks style).length - 4]? = some c := by
      rw [marks, List.length_append, width, Nat.add_sub_cancel]
      simp
    rw [readBlocks, if_neg (by rw [stroke]; decide), Drawn.last?, if_neg plain, own, first, length, wide,
      Nat.mul_div_cancel _ (by decide)]
    exact Prod.ext rfl (congrArg some (decide_eq_decide.2 tells))

theorem Drawn.newline_notMem_shown (style : Style) (oneLine : '\n' ∉ e.rest.toList) :
    '\n' ∉ (e.shown style).toList := by
  have role : '\n' ∉ e.node.role.name.toList := by cases e.node.role <;> decide
  have marks : '\n' ∉ e.marks style := fun mem => absurd (mem_strokes_of_mem_marks mem) (by decide)
  have toList : (e.shown style).toList = e.marks style ++ e.node.role.name.toList ++ e.rest.toList := by
    simp [shown, Drawn.marks, String.toList_join, List.flatMap_map]
  rw [toList, List.mem_append, List.mem_append]
  rintro ((mem | mem) | mem)
  · exact marks mem
  · exact role mem
  · exact oneLine mem

theorem Drawn.readLine_shown (style : Style) (e : Drawn) :
    readLine (e.shown style).toList = some (e.depth, e.last? style) := by
  have role : ∃ c cs, e.node.role.name.toList = c :: cs ∧ c ∉ strokes ∧ c.isLower := by
    cases e.node.role <;> exact ⟨_, _, rfl, by decide, by decide⟩
  obtain ⟨c, cs, name, notStroke, lower⟩ := role
  have strokes : ∀ c ∈ e.marks style, decide (c ∈ strokes) = true := fun c mem =>
    decide_eq_true (Drawn.mem_strokes_of_mem_marks mem)
  have toList : (e.shown style).toList = e.marks style ++ c :: (cs ++ e.rest.toList) := by
    simp [Drawn.shown, Drawn.marks, String.toList_join, name, List.flatMap_map]
  rw [readLine, toList, List.dropWhile_append_of_pos strokes, List.takeWhile_append_of_pos strokes,
    List.dropWhile_cons_of_neg (by simpa using notStroke),
    List.takeWhile_cons_of_neg (by simpa using notStroke), List.append_nil]
  simp only [lower, if_true, readBlocks_marks]

end Outline

/-! ### Reading a text -/

/-- A text is divided at its line breaks; nothing is left after the last. -/
theorem Text.IsLines.splitOn {text : String} {lines : List String} (h : Text.IsLines text lines) :
    text.toList.splitOn '\n' = lines.map String.toList ++ [[]] := by
  obtain ⟨rfl, one⟩ := h
  induction lines with
  | nil => rfl
  | cons l rest ih =>
    have apart : ∀ c ∈ l.toList, (c == '\n') = false := by
      intro c mem
      have other : c ≠ '\n' := fun same => one l List.mem_cons_self (same ▸ mem)
      simpa using other
    have toList : (String.join ((l :: rest).map (· ++ "\n"))).toList =
        l.toList ++ '\n' :: (String.join (rest.map (· ++ "\n"))).toList := by
      simp
    rw [toList, List.splitOn, List.splitOnP_append_cons_of_forall_mem apart _ rfl]
    exact congrArg _ (ih fun l' mem => one l' (List.mem_cons_of_mem l mem))

namespace Outline

theorem read_of_isLines {text : String} {lines : List String} (h : Text.IsLines text lines) :
    read text = lines.filterMap fun l => readLine l.toList := by
  rw [read, h.splitOn, List.filterMap_append, List.filterMap_map]
  exact List.append_nil _

/-! ### Parents -/

/-- A line is the nearest of those above another that is less deep. -/
def NearestAbove (depths : List Nat) (j k : Nat) : Prop :=
  j < k ∧ ∃ c d, depths[j]? = some c ∧ depths[k]? = some d ∧ c < d ∧
    ∀ l c, j < l → l < k → depths[l]? = some c → d ≤ c

/-- What lies between a node and a child of it in preorder is below the node. -/
theorem length_lt_of_between {xs ys : List Nat} {n : Nat} (after : xs < ys)
    (before : ys < xs ++ [n]) : xs.length < ys.length := by
  induction xs generalizing ys with
  | nil =>
    cases ys with
    | nil => exact absurd after (List.not_lt_nil _)
    | cons y ys => exact Nat.succ_pos _
  | cons x xs ih =>
    cases ys with
    | nil => exact absurd after (List.not_lt_nil _)
    | cons y ys =>
      -- the first places agree, or one of the two would be out of order
      rw [List.cons_append] at before
      rcases List.cons_lt_cons_iff.1 after with less | ⟨rfl, later⟩
      · rcases List.cons_lt_cons_iff.1 before with less' | ⟨rfl, -⟩
        · exact absurd less (Nat.lt_asymm less')
        · exact absurd less (Nat.lt_irrefl _)
      · rcases List.cons_lt_cons_iff.1 before with less' | ⟨-, earlier⟩
        · exact absurd less' (Nat.lt_irrefl _)
        · exact Nat.succ_lt_succ (ih later earlier)

variable {o : Options} {way : List Place} {siblings : List Adapter} {es : List Drawn} {e p : Drawn}
  {j k : Nat}

namespace Mirrors

theorem lt_iff (h : Mirrors o way siblings es) (hj : es[j]? = some p) (hk : es[k]? = some e) :
    j < k ↔ p.address < e.address := by
  have ordered : ∀ {j k : Nat} {p e : Drawn}, es[j]? = some p → es[k]? = some e → j < k →
      p.address < e.address := by
    intro j k p e hj hk lt
    obtain ⟨inside, rfl⟩ := List.getElem?_eq_some_iff.1 hj
    obtain ⟨inside', rfl⟩ := List.getElem?_eq_some_iff.1 hk
    exact List.pairwise_iff_getElem.1 h.preorder j k inside inside' lt
  refine ⟨ordered hj hk, fun less => ?_⟩
  by_contra other
  rcases Nat.lt_or_eq_of_le (Nat.le_of_not_lt other) with lt | rfl
  · exact List.lt_asymm less (ordered hk hj lt)
  · rw [hj] at hk
    cases hk
    exact List.lt_irrefl _ less

/-- The line of its parent is the nearest above the line of a node that is less deep. -/
theorem nearestAbove (h : Mirrors o [] siblings es) (hj : es[j]? = some p) (hk : es[k]? = some e)
    (child : e.Among p.way p.children) : NearestAbove (es.map Drawn.depth) j k := by
  obtain ⟨index, way_eq, -⟩ := child
  have address : e.address = p.address ++ [index] := by simp [Drawn.address, way_eq]
  have nonempty : ∀ f ∈ es, f.depth + 1 = f.address.length := by
    intro f mem
    obtain ⟨place, rest, way⟩ := h.below f mem
    simp [Drawn.depth, Drawn.address, way]
  have hp := nonempty p (List.mem_of_getElem? hj)
  have he := nonempty e (List.mem_of_getElem? hk)
  have next : e.depth = p.depth + 1 := by
    rw [address, List.length_append, ← hp] at he
    exact Nat.succ.inj he
  refine ⟨(h.lt_iff hj hk).2 ?_, p.depth, e.depth, by simp [hj], by simp [hk], by omega, ?_⟩
  · rw [address]
    exact lt_append_cons _ _ _
  · intro l c after before hc
    obtain ⟨f, hf, rfl⟩ : ∃ f, es[l]? = some f ∧ f.depth = c := by simpa using hc
    have longer := length_lt_of_between ((h.lt_iff hj hf).1 after)
      (address ▸ (h.lt_iff hf hk).1 before)
    have := nonempty f (List.mem_of_getElem? hf)
    omega

/-- A line is the nearest above another that is less deep exactly if its node is the parent. -/
theorem nearestAbove_iff (h : Mirrors o [] siblings es) :
    NearestAbove (es.map Drawn.depth) j k ↔
      ∃ p e, es[j]? = some p ∧ es[k]? = some e ∧ e.Among p.way p.children := by
  refine ⟨?_, fun ⟨p, e, hj, hk, child⟩ => h.nearestAbove hj hk child⟩
  rintro ⟨lt, c, d, hc, hd, less, between⟩
  obtain ⟨p, hj, rfl⟩ : ∃ p, es[j]? = some p ∧ p.depth = c := by simpa using hc
  obtain ⟨e, hk, rfl⟩ : ∃ e, es[k]? = some e ∧ e.depth = d := by simpa using hd
  rcases h.only e (List.mem_of_getElem? hk) with ⟨index, way_eq, -⟩ | ⟨p', mem, child⟩
  · simp [Drawn.depth, way_eq] at less
  · obtain ⟨j', hj'⟩ := List.mem_iff_getElem?.1 mem
    obtain ⟨lt', c', d', hc', hd', less', between'⟩ := h.nearestAbove hj' hk child
    obtain rfl : p'.depth = c' := by simpa [hj'] using hc'
    obtain rfl : e.depth = d' := by simpa [hk] using hd'
    -- neither of the two lines can lie between the other and the child
    obtain rfl : j = j' := by
      rcases Nat.lt_trichotomy j j' with before | same | after
      · exact absurd (between j' _ before lt' hc') (by omega)
      · exact same
      · exact absurd (between' j _ after lt hc) (by omega)
    exact ⟨p', e, hj', hk, child⟩

end Mirrors

/-! ### Outlines -/

/-- The lines in front of the outline of a tree with so many nodes and tables. -/
def headLines (nodes tables : Nat) : List String :=
  ("Adapter Tree (" ++ toString nodes ++ " adapters):") :: if tables = 0 then ["  (empty)"] else []

/-- An outline as it was drawn. -/
structure Drawing where
  /-- The lines in front. -/
  head : List String
  /-- The nodes it begins with. -/
  tops : List Adapter
  /-- All nodes that were drawn. -/
  nodes : List Drawn
deriving DecidableEq, Repr

namespace Drawing

/-- Its lines. -/
def lines (style : Style) (d : Drawing) : List String := d.head ++ d.nodes.map (Drawn.shown style)

/-- Its text. -/
def text (style : Style) (d : Drawing) : String := String.join ((d.lines style).map (· ++ "\n"))

/-- Its nodes can be read back from its text. -/
structure Legible (style : Style) (d : Drawing) : Prop where
  /-- Each node has a line of its own, which no label breaks. -/
  lines : Text.IsLines (d.text style) (d.lines style)
  /-- There are as many blocks in front of its line as it is below the top. -/
  blocks : ∀ e ∈ d.nodes, e.blocks.length = e.depth
  /-- It is read how deep the nodes are, and which are last children. -/
  read : read (d.text style) = d.nodes.map fun e => (e.depth, e.last? style)
  /-- It is read which of them is the parent of which. -/
  nested : ∀ j k, NearestAbove ((Outline.read (d.text style)).map Prod.fst) j k ↔
    ∃ p e, d.nodes[j]? = some p ∧ d.nodes[k]? = some e ∧ e.Among p.way p.children

/-- Its text has these lines, if there is no line break in any of them. -/
theorem isLines {d : Drawing} (style : Style) (head : ∀ l ∈ d.head, '\n' ∉ l.toList)
    (oneLine : ∀ e ∈ d.nodes, '\n' ∉ e.rest.toList) : Text.IsLines (d.text style) (d.lines style) := by
  refine ⟨rfl, fun l mem => ?_⟩
  rcases List.mem_append.1 mem with mem | mem
  · exact head l mem
  · obtain ⟨e, drawn, rfl⟩ := List.mem_map.1 mem
    exact e.newline_notMem_shown style (oneLine e drawn)

/-- What was drawn in preorder can be read back, if the lines in front do not look like nodes. -/
theorem legible {d : Drawing} (style : Style) (h : Mirrors o [] d.tops d.nodes)
    (head : ∀ l ∈ d.head, '\n' ∉ l.toList ∧ readLine l.toList = none) : d.Legible style := by
  have lines : Text.IsLines (d.text style) (d.lines style) :=
    isLines style (fun l mem => (head l mem).1) h.oneLine
  have read : Outline.read (d.text style) = d.nodes.map fun e => (e.depth, e.last? style) := by
    have unread : d.head.filterMap (fun l => readLine l.toList) = [] :=
      List.filterMap_eq_nil_iff.2 fun l mem => (head l mem).2
    rw [read_of_isLines lines, Drawing.lines, List.filterMap_append, unread, List.nil_append,
      List.filterMap_map, ← List.filterMap_eq_map]
    congr 1
    funext e
    exact e.readLine_shown style
  refine ⟨lines, fun e _ => e.blocks_length, read, fun j k => ?_⟩
  rw [read, List.map_map]
  exact h.nearestAbove_iff

end Drawing

theorem outlineHead_eq (nodes tables : Nat) :
    outlineHead nodes tables = String.join ((headLines nodes tables).map (· ++ "\n")) := by
  have last : " adapters):\n" = " adapters):" ++ "\n" := rfl
  unfold outlineHead headLines
  rw [last, ← String.append_assoc]
  split <;> simp

theorem headLines_unread {nodes tables : Nat} {l : String} (mem : l ∈ headLines nodes tables) :
    '\n' ∉ l.toList ∧ readLine l.toList = none := by
  rcases List.mem_cons.1 mem with rfl | mem
  · have toList : ("Adapter Tree (" ++ toString nodes ++ " adapters):").toList =
        'A' :: ("dapter Tree (".toList ++ (toString nodes).toList ++ " adapters):".toList) := by
      rw [String.toList_append, String.toList_append]
      rfl
    rw [toList]
    refine ⟨?_, ?_⟩
    · simp only [List.mem_cons, List.mem_append, not_or]
      exact ⟨by decide, ⟨by decide, newline_notMem_number nodes⟩, by decide⟩
    · rw [readLine, List.dropWhile_cons_of_neg (by decide)]
      rfl
  · split at mem
    · obtain rfl := List.mem_singleton.1 mem
      decide
    · cases mem

/-- The nodes of an outline that begins with some. -/
def drawEach (o : Options) (tops : List Adapter) : Act μ (List Drawn) :=
  List.flatten <$> Act.each (places tops) fun (place, a) => drawUnder o Adapter.levels [place] a

/-- The outline of all tables of a tree, as it is drawn. -/
def drawAll (o : Options) (t : TreeId) : Act μ Drawing := do
  let tree ← getTree t
  let nodes ← drawEach o tree.tables
  pure ⟨headLines tree.size tree.tables.length, tree.tables, nodes⟩

/-- The outline of a node and all below it, as it is drawn. -/
def drawOne (o : Options) (a : Adapter) : Act μ Drawing := do return ⟨[], [a], ← drawEach o [a]⟩

theorem places_map_snd (siblings : List Adapter) : (places siblings).map Prod.snd = siblings := by
  rw [places, List.map_map]
  exact List.zipIdx_map_fst 0 siblings

/-- The outlines of some nodes one after the other are those of what is drawn. -/
theorem join_outlineUnder (o : Options) (tops : List Adapter) :
    String.join <$> Act.each tops (outlineUnder o) =
      text o.style <$> (drawEach o tops : Act μ (List Drawn)) := by
  have one : ∀ x : Place × Adapter, (outlineUnder o x.2 : Act μ String) =
      text o.style <$> drawUnder o Adapter.levels [x.1] x.2 := by
    intro x
    have root : moreOn [] = [] := rfl
    rw [← linesUnder_drawn o Adapter.levels x.1 [] x.2, root, outlineUnder, map_eq_pure_bind]
  have join : String.join ∘ List.map (text o.style) = text o.style ∘ List.flatten :=
    funext fun parts => (text_flatten o.style parts).symm
  calc String.join <$> Act.each tops (outlineUnder o)
    _ = String.join <$> Act.each (places tops) fun x => outlineUnder o x.2 := by
      rw [← Act.each_map Prod.snd, places_map_snd]
    _ = String.join <$> List.map (text o.style) <$> Act.each (places tops) fun x =>
        drawUnder o Adapter.levels [x.1] x.2 := by
      rw [funext one, Act.map_each]
    _ = text o.style <$> (drawEach o tops : Act μ (List Drawn)) := by
      rw [drawEach, ← comp_map, ← comp_map, join]

theorem Drawing.text_mk (style : Style) (head : List String) (tops : List Adapter) (nodes : List Drawn) :
    (Drawing.mk head tops nodes).text style =
      String.join (head.map (· ++ "\n")) ++ Outline.text style nodes := by
  rw [Drawing.text, Drawing.lines, List.map_append, String.join_append, List.map_map]
  rfl

theorem outlineAll_drawn (o : Options) (t : TreeId) :
    (outlineAll o t : Act μ String) = Drawing.text o.style <$> drawAll o t := by
  have parts : ∀ (tops : List Adapter) (head : String), (do
      let parts ← Act.each tops (outlineUnder o)
      pure (head ++ String.join parts)) =
      (do
      let nodes ← drawEach o tops
      pure (head ++ text o.style nodes) : Act μ String) := by
    intro tops head
    rw [← bind_map_left String.join _ fun s => pure (head ++ s), join_outlineUnder, bind_map_left]
  unfold outlineAll drawAll
  simp only [map_bind, map_pure, Drawing.text_mk, ← outlineHead_eq, parts]

theorem outlineUnder_drawn (o : Options) (a : Adapter) :
    (outlineUnder o a : Act μ String) = Drawing.text o.style <$> drawOne o a := by
  have alone : (outlineUnder o a : Act μ String) = String.join <$> Act.each [a] (outlineUnder o) := by
    rw [Act.each_cons]
    simp [Act.each, Act.eachAfter]
  rw [alone, join_outlineUnder, drawOne, map_bind, map_eq_pure_bind]
  simp only [map_pure, Drawing.text_mk]
  simp

/-- Nodes that were made are drawn with all below them. -/
theorem drawEach_meets {tops : List Adapter} (h : m.Lived) (known : ∀ a ∈ tops, .made a ∈ m.past) :
    (drawEach o tops).Meets m fun _ es => Mirrors o [] tops es := by
  refine .map ((Act.Meets.each_forall₂ (R := Sprout o []) ?_).mono
    fun _ _ _ _ sprouts => .of_sprouts sprouts)
  rintro m' ⟨place, a⟩ goes listed
  have mem := List.mem_of_getElem? (mem_places.1 listed).2
  exact drawUnder_meets [] (x := (place, a)) (h.goes goes) (goes.remembers (known a mem))
    a.identity.levels_le

/-- An outline is the text of what is drawn. Whatever the others do meanwhile, what is drawn makes up the
tree, and it can be read back from the text. -/
structure Draws (o : Options) (m : Moment μ) (outline : Act μ String) (drawing : Act μ Drawing) :
    Prop where
  /-- It does what the drawing does. -/
  text : outline = Drawing.text o.style <$> drawing
  /-- The nodes are those of the tree, and they can be read back. -/
  drawn : drawing.Meets m fun _ d => Mirrors o [] d.tops d.nodes ∧ d.Legible o.style

end Outline

/-- An act that does not stop ends where it meets what it comes to. -/
theorem Act.Meets.of_value {α : Type} {act : Act μ α} {Q : Moment μ → α → Prop} {x : α}
    (h : act.Meets m Q) (value : (act m.world).value? = some x) :
    ∃ m', act m.world = .done (.ok x) m'.world ∧ Q m' x := by
  cases run : act m.world with
  | done result w =>
    rw [run] at value
    cases result with
    | ok y =>
      cases value
      obtain ⟨m', -, rfl, holds⟩ := h.ends run
      exact ⟨m', rfl, holds⟩
    | error p => cases value
  | _ =>
    rw [run] at value
    cases value

open Outline

/-- **Branches mirror the tree.** Take any outline of a tree, or of a node, in any style, and let the
others do what they like meanwhile. In front of the line of a node there is one block for each level it
is below the top, all of one width; its own block shows whether a sibling follows it in the list of
children it was drawn from, the blocks before show that of the nodes above it. The lines stand in
preorder, and nothing is left out but levels that are hidden. So the text alone tells how deep each node
is, which node is its parent, and in a style that draws branches which nodes are last children. -/
theorem branches_mirror_the_tree (h : m.Lived) (o : Options) :
    (∀ b, (o.style.block b).toList.length = o.style.width) ∧
      (o.style = .compact → ∀ b, o.style.block b = "  ") ∧
      (∀ t, Draws o m (outlineAll o t) (drawAll o t)) ∧
      ∀ a, .made a ∈ m.past → Draws o m (outlineUnder o a) (drawOne o a) := by
  refine ⟨o.style.block_length, fun compact b => by rw [compact]; rfl, fun t => ?_, fun a known => ?_⟩
  · refine ⟨outlineAll_drawn o t, ?_⟩
    unfold drawAll
    apply getTree_meets
    intro tree ht
    have known : ∀ a ∈ tree.tables, .made a ∈ m.past := by
      intro a mem
      obtain ⟨⟨k, a⟩, listed, rfl⟩ := List.mem_map.1 (List.mem_filter.1 mem).1
      have stored : tree.get? k = some a := (h.coherent ht).indexed.arena.mem_toList.1 listed
      exact h.keyed.stored ht stored
    refine (drawEach_meets h known).next fun _ nodes _ _ mirrors => .pure ⟨mirrors, ?_⟩
    exact Drawing.legible o.style mirrors fun _ => headLines_unread
  · refine ⟨outlineUnder_drawn o a, ?_⟩
    have known : ∀ b ∈ [a], .made b ∈ m.past := fun b mem => List.mem_singleton.1 mem ▸ known
    refine (drawEach_meets h known).next fun _ nodes _ _ mirrors => .pure ⟨mirrors, ?_⟩
    exact Drawing.legible o.style mirrors fun _ mem => by cases mem

/-- So it is for a table of two columns and one row. -/
theorem branches_mirror_the_tree_row :
    ∃ (m : Moment Unit) (d : Drawing) (w : World Unit), m.Lived ∧
      outlineAll ⟨.ascii, false, false, false, none⟩ 0 m.world = .done (.ok (d.text .ascii)) w ∧
      d.lines .ascii = ["Adapter Tree (1 adapters):", "table \"Inventory\"", "+-- row",
        "|   +-- cell \"bolts\"", "|   `-- cell \"40\"", "+-- column \"Item\"", "`-- column \"Qty\""] ∧
      Mirrors ⟨.ascii, false, false, false, none⟩ [] d.tops d.nodes ∧ d.Legible .ascii ∧
      read (d.text .ascii) = [(0, none), (1, some false), (2, some false), (2, some true),
        (1, some false), (1, some true)] := by
  obtain ⟨m, lived, e, -⟩ := Stage.set_attached
    (g := ⟨"Inventory", ["Item", "Qty"], [["bolts", "40"]]⟩) (by simp [Grid.Rectangular]) ()
    (.toolkit 0)
  obtain ⟨-, -, draws, -⟩ := branches_mirror_the_tree lived ⟨.ascii, false, false, false, none⟩
  obtain ⟨text, drawn⟩ := draws 0
  have shown : ((drawAll ⟨.ascii, false, false, false, none⟩ 0 m.world).value?.map fun d =>
      (d.lines .ascii, read (d.text .ascii))) = some (["Adapter Tree (1 adapters):",
        "table \"Inventory\"", "+-- row", "|   +-- cell \"bolts\"", "|   `-- cell \"40\"",
        "+-- column \"Item\"", "`-- column \"Qty\""], [(0, none), (1, some false), (2, some false),
        (2, some true), (1, some false), (1, some true)]) := by
    rw [e]
    decide +kernel
  obtain ⟨d, value, both⟩ := Option.map_eq_some_iff.1 shown
  obtain ⟨lines, seen⟩ := Prod.mk.inj both
  obtain ⟨m', run, mirrors, legible⟩ := drawn.of_value value
  refine ⟨m, d, m'.world, lived, ?_, lines, mirrors, legible, seen⟩
  rw [text, map_eq_pure_bind, Act.bind_apply, run]
  rfl

end TableAccess
