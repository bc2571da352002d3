import TableAccess.Proofs.LawfulNodes
import TableAccess.Proofs.Outlines
import TableAccess.Proofs.Visits

/-!
# Drawings

An outline lists the children of a node once, and draws them from that list while everybody goes on
working. What it has drawn is a tree of its own: each node stands in one of the lists, and the list was
made from the node above.

## The model

* `Outline.Place` — a place in a list of siblings.
* `Outline.Drawn` — a node with the places of all above it and its own.
* `drawUnder` — the nodes of an outline, as they are drawn; `linesUnder_drawn` — the lines are theirs.
* `Outline.Mirrors` — nodes that were drawn make up a tree, in preorder, and nothing is left out.
* `drawUnder_meets` — so they do, whatever the others do meanwhile.
-/

namespace TableAccess

variable {μ α β γ : Type} {m m' : Moment μ} {t : TreeId} {a b : Adapter} {i : Identity}

/-! ### Levels -/

/-- A node was made that has fewer levels than another. -/
structure Moment.Below (a : Adapter) (m : Moment μ) (b : Adapter) : Prop where
  /-- It was made. -/
  made : .made b ∈ m.past
  /-- It has fewer levels. -/
  less : b.identity.levels < a.identity.levels

namespace Moment.Below

theorem goes (goes : m.Goes m') (below : m.Below a b) : m'.Below a b :=
  { below with made := goes.remembers below.made }

theorem of_stands (h : m'.Lived) (less : i.levels < a.identity.levels)
    (found : .made b ∈ m'.past ∧ m'.Stands t i b) : m'.Below a b :=
  ⟨found.1, found.2.identity h ▸ less⟩

end Moment.Below

/-- The children of a node in the serialized tree have fewer levels than it has. -/
theorem Adapter.treeChildren_below (h : m.Lived) (known : .made a ∈ m.past) :
    (a.treeChildren).Meets m fun m' nodes => ∀ b ∈ nodes, m'.Below a b := by
  unfold treeChildren children
  cases isNode : a.identity with
  | table k =>
    have own : a.key = a.identity.tableKey := by rw [h.keyed.own known isNode, isNode]; rfl
    refine (Table.shape_lawful h).next fun m₁ shape goes₁ _ _ => ?_
    split
    · refine Table.childrenFor_all (R := Moment.Below a) Moment.Below.goes _ (fun m₂ row goes₂ => ?_)
        fun m₂ column goes₂ => ?_
      · have goes := goes₁.trans goes₂
        rw [own]
        exact (rowNode_meets (h.goes goes) (goes.remembers known) row).mono
          fun _ _ goes₃ _ => .of_stands ((h.goes goes).goes goes₃) (by simp [isNode, Identity.levels])
      · have goes := goes₁.trans goes₂
        rw [own]
        exact (columnNode_meets (h.goes goes) (goes.remembers known) column).mono
          fun _ _ goes₃ _ => .of_stands ((h.goes goes).goes goes₃) (by simp [isNode, Identity.levels])
    · exact .pure fun b mem => by cases mem
  | row k row =>
    refine counted_all (R := Moment.Below a) Moment.Below.goes (Row.columnCount_lawful h row)
      fun m₁ column goes => ?_
    exact (cellNode_meets (h.goes goes) (goes.remembers known) row column).mono
      fun _ _ goes₂ _ => .of_stands ((h.goes goes).goes goes₂) (by simp [isNode, Identity.levels])
  | column | cell => exact .pure fun b mem => by cases mem

theorem Act.map_each (f : α → β) (items : List γ) (act : γ → Act μ α) :
    List.map f <$> each items act = each items fun c => f <$> act c := by
  induction items with
  | nil => rfl
  | cons c rest ih =>
    simp only [each_cons, map_bind, map_pure, bind_map_left, List.map_cons, ← ih]

namespace Outline

/-! ### Nodes that are drawn -/

/-- A place in a list of siblings. -/
structure Place where
  /-- The siblings, as they were listed. -/
  siblings : List Adapter
  /-- How many of them come before. -/
  index : Nat
deriving DecidableEq, Repr

/-- A later sibling follows. -/
def Place.HasMore (p : Place) : Prop := p.index + 1 < p.siblings.length

instance (p : Place) : Decidable p.HasMore := inferInstanceAs (Decidable (_ < _))

/-- The siblings of a list with their places. -/
def places (siblings : List Adapter) : List (Place × Adapter) :=
  siblings.zipIdx.map fun (a, index) => (⟨siblings, index⟩, a)

/-- A node that was drawn. -/
structure Drawn where
  /-- The places of all above it from the top down, and last its own. -/
  way : List Place
  /-- The node. -/
  node : Adapter
  /-- Its children in the serialized tree, as they were listed when it was drawn. -/
  children : List Adapter
  /-- What its line says after its role. -/
  rest : String
deriving DecidableEq, Repr

namespace Drawn

/-- How far below the top it is. -/
def depth (e : Drawn) : Nat := e.way.length - 1

/-- How many siblings come before, for each level from the top down. -/
def address (e : Drawn) : List Nat := e.way.map Place.index

/-- The block of what stands at a place on a level: of the node itself, or of one above it. -/
def block (e : Drawn) (place : Place) (level : Nat) : Block :=
  if level = e.depth then if place.HasMore then .tee else .elbow
  else if place.HasMore then .pipe else .blank

/-- The blocks in front of it, one for each level from the first below the top down to its own. -/
def blocks (e : Drawn) : List Block :=
  (e.way.zipIdx.drop 1).map fun (place, level) => e.block place level

/-- Its line: the blocks, its role, and what else is said of it. -/
def shown (style : Style) (e : Drawn) : String :=
  String.join (e.blocks.map style.block) ++ e.node.role.name ++ e.rest

/-- It was drawn as one of some siblings, below a way. -/
def Among (e : Drawn) (way : List Place) (siblings : List Adapter) : Prop :=
  ∃ index, e.way = way ++ [⟨siblings, index⟩] ∧ siblings[index]? = some e.node

end Drawn

/-- What a line says after the role. -/
def Line.rest (l : Line) : String :=
  (match l.label with
    | some label => " " ++ Text.quote label
    | none => "") ++
  (match l.index with
    | some index => " #" ++ toString index
    | none => "") ++
  (match l.id with
    | some id => " [" ++ toString id.toNat ++ "]"
    | none => "") ++
  if l.gone then " (invalid)" else ""

/-- The nodes of an outline as they are drawn, from one with its place at the end of its way. -/
def drawUnder (o : Options) : (levels : Nat) → List Place → Adapter → Act μ (List Drawn)
  | 0, _, _ => pure []
  | levels + 1, way, a => do
    if o.Hides (way.length - 1) then pure []
    else
      let rest ← Line.rest <$> line o [] a
      let children ← a.treeChildren
      let below ← Act.each (places children) fun (place, child) =>
        drawUnder o levels (way ++ [place]) child
      pure (⟨way, a, children, rest⟩ :: below.flatten)

/-! ### Lines of what was drawn -/

theorem Line.words_eq (l : Line) : l.words = l.role.name ++ l.rest := by
  have assoc : ∀ name label index id gone : String, name ++ label ++ index ++ id ++ gone =
      name ++ (label ++ index ++ id ++ gone) := by
    simp only [String.append_assoc, implies_true]
  exact assoc _ _ _ _ _

/-- For each level of a way, whether a later sibling follows there. -/
def moreOn (way : List Place) : List Bool := way.map fun p => decide p.HasMore

/-- The blocks of a line are those of a node with the same places. -/
theorem blocks_moreOn (top : Place) (below : List Place) (a : Adapter) (children : List Adapter)
    (rest : String) :
    Outline.blocks (moreOn below) = (Drawn.mk (top :: below) a children rest).blocks := by
  suffices known : ∀ (level last : Nat), level + below.length = last + 1 →
      Outline.blocks (moreOn below) = (below.zipIdx level).map fun (place, level) =>
        if level = last then if place.HasMore then .tee else .elbow
        else if place.HasMore then .pipe else .blank by
    exact known 1 below.length (Nat.add_comm ..)
  induction below with
  | nil => exact fun _ _ _ => rfl
  | cons p others ih =>
    intro level last ends
    rw [List.zipIdx_cons, List.map_cons, ← ih (level + 1) last (by rw [← ends, List.length_cons]; omega)]
    cases others with
    | nil =>
      obtain rfl : level = last := Nat.succ.inj ends
      simp [moreOn, Outline.blocks]
    | cons q others =>
      have above : level ≠ last := by
        simp only [List.length_cons] at ends
        omega
      simp [moreOn, Outline.blocks, above]

/-- Whether more follow is a matter of the place. -/
theorem withMore_eq (siblings : List Adapter) :
    withMore siblings = (places siblings).map fun x => (decide x.1.HasMore, x.2) := by
  suffices known : ∀ (rest : List Adapter) (before : Nat), before + rest.length = siblings.length →
      withMore rest = (rest.zipIdx before).map fun x =>
        (decide (Place.HasMore ⟨siblings, x.2⟩), x.1) by
    rw [known siblings 0 (Nat.zero_add _), places, List.map_map]
    rfl
  intro rest
  induction rest with
  | nil => exact fun _ _ => rfl
  | cons a rest ih =>
    intro before counts
    rw [List.length_cons] at counts
    rw [withMore, ih (before + 1) (by omega), List.zipIdx_cons, List.map_cons]
    congr 2
    cases rest with
    | nil =>
      have last : ¬before + 1 < siblings.length := by
        rw [← counts, List.length_nil]
        omega
      simp [Place.HasMore, last]
    | cons b rest =>
      have more : before + 1 < siblings.length := by
        rw [← counts, List.length_cons]
        omega
      simp [Place.HasMore, more]

theorem join_flatten (f : α → String) (below : List (List α)) :
    String.join (below.flatten.map f) = String.join (below.map fun l => String.join (l.map f)) := by
  induction below with
  | nil => rfl
  | cons l rest ih =>
    rw [List.flatten_cons, List.map_append, String.join_append, ih, List.map_cons, String.join_cons]

/-- The text of nodes that were drawn, one line each. -/
def text (style : Style) (es : List Drawn) : String :=
  String.join (es.map fun e => e.shown style ++ "\n")

theorem render_cons (style : Style) (first : Line) (below : List (List Line)) :
    render style (first :: below.flatten) =
      first.render style ++ String.join (below.map (render style)) := by
  rw [render, List.map_cons, String.join_cons, join_flatten]
  rfl

theorem text_flatten (style : Style) (ess : List (List Drawn)) :
    text style ess.flatten = String.join (ess.map (text style)) := by
  rw [text, join_flatten]
  rfl

theorem text_cons (style : Style) (e : Drawn) (below : List (List Drawn)) :
    text style (e :: below.flatten) =
      e.shown style ++ "\n" ++ String.join (below.map (text style)) := by
  rw [← text_flatten, text, List.map_cons, String.join_cons]
  rfl

/-- The line of a node says the same at every place. -/
theorem render_line (o : Options) (style : Style) (path : List Bool) (a : Adapter) :
    Line.render style <$> (line o path a : Act μ Line) =
      (fun rest => String.join ((blocks path).map style.block) ++ a.role.name ++ rest ++ "\n") <$>
        Line.rest <$> line o [] a := by
  simp only [line_eq, map_bind, map_pure]
  simp only [Line.render, Line.words_eq, Line.rest, String.append_assoc]

/-- The lines under a node are those of the nodes that are drawn. -/
theorem linesUnder_drawn (o : Options) (levels : Nat) (top : Place) (way : List Place) (a : Adapter) :
    render o.style <$> (linesUnder o levels (moreOn way) a : Act μ _) =
      text o.style <$> drawUnder o levels (top :: way) a := by
  induction levels generalizing way a with
  | zero => rfl
  | succ levels ih =>
    have depth : (moreOn way).length = (top :: way).length - 1 := by simp [moreOn]
    have first : ∀ K : String → Act μ String,
        (line o (moreOn way) a >>= fun l => K (l.render o.style)) =
        (Line.rest <$> line o [] a) >>= fun rest => K (String.join
          ((blocks (moreOn way)).map o.style.block) ++ a.role.name ++ rest ++ "\n") := by
      intro K
      rw [← bind_map_left (Line.render o.style), render_line, bind_map_left]
    have below : ∀ (children : List Adapter) (K : List String → Act μ String),
        (Act.each (withMore children) (fun x => linesUnder o levels (moreOn way ++ [x.1]) x.2) >>=
          fun parts => K (parts.map (render o.style))) =
        Act.each (places children) (fun x => drawUnder o levels (top :: way ++ [x.1]) x.2) >>=
          fun parts => K (parts.map (text o.style)) := by
      intro children K
      rw [← bind_map_left (List.map (render o.style)), ← bind_map_left (List.map (text o.style)),
        Act.map_each, Act.map_each, withMore_eq, Act.each_map]
      congr 2
      funext x
      have same := ih (way ++ [x.1]) x.2
      rw [moreOn, List.map_append] at same
      exact same
    unfold linesUnder drawUnder
    rw [depth]
    split
    · rfl
    · simp only [map_bind, map_pure, render_cons, text_cons, Drawn.shown,
        ← blocks_moreOn top way a]
      refine (first fun s => do
        let children ← a.treeChildren
        let parts ← Act.each (withMore children) fun x =>
          linesUnder o levels (moreOn way ++ [x.1]) x.2
        pure (s ++ String.join (parts.map (render o.style)))).trans ?_
      refine bind_congr fun rest => bind_congr fun children => ?_
      exact below children fun parts => pure (_ ++ String.join parts)

variable {o : Options} {way : List Place} {siblings : List Adapter} {es : List Drawn} {e : Drawn}

/-! ### The tree that was drawn -/

/-- All of some siblings below a way were drawn, each at its place. -/
def HasAll (es : List Drawn) (way : List Place) (siblings : List Adapter) : Prop :=
  ∀ index a, siblings[index]? = some a →
    ∃ e ∈ es, e.way = way ++ [⟨siblings, index⟩] ∧ e.node = a

/-- Nodes were drawn that make up a tree for each of some siblings below a way. -/
structure Mirrors (o : Options) (way : List Place) (siblings : List Adapter) (es : List Drawn) :
    Prop where
  /-- Every node is one of the siblings, or a child of a node that was drawn too. -/
  only : ∀ e ∈ es, e.Among way siblings ∨ ∃ p ∈ es, e.Among p.way p.children
  /-- All siblings were drawn, if their level is shown. -/
  tops : ¬o.Hides way.length → HasAll es way siblings
  /-- All children of the nodes were drawn, if their level is shown. -/
  children : ∀ p ∈ es, ¬o.Hides (p.depth + 1) → HasAll es p.way p.children
  /-- No level was drawn that is hidden. -/
  shown : ∀ e ∈ es, ¬o.Hides e.depth
  /-- They were drawn in preorder: each before all below it, and before those that follow. -/
  preorder : es.Pairwise fun e e' => e.address < e'.address
  /-- They are below the way. -/
  below : ∀ e ∈ es, ∃ place rest, e.way = way ++ place :: rest
  /-- What is said of a node does not break its line. -/
  oneLine : ∀ e ∈ es, '\n' ∉ e.rest.toList

/-- What is above comes first. -/
theorem lt_append_cons (xs : List Nat) (n : Nat) (ys : List Nat) : xs < xs ++ n :: ys := by
  have first : xs ++ [] < xs ++ n :: ys := List.append_left_lt (List.nil_lt_cons n ys)
  rwa [List.append_nil] at first

/-- What was drawn of one node at a place below a way. -/
inductive Sprout (o : Options) (way : List Place) (x : Place × Adapter) : List Drawn → Prop where
  /-- Its level is hidden. -/
  | hidden (h : o.Hides way.length) : Sprout o way x []
  /-- It was drawn, and then what is below it. -/
  | drawn {children : List Adapter} {rest : String} {es : List Drawn} (h : ¬o.Hides way.length)
    (oneLine : '\n' ∉ rest.toList) (below : Mirrors o (way ++ [x.1]) children es) :
    Sprout o way x (⟨way ++ [x.1], x.2, children, rest⟩ :: es)

theorem HasAll.mono {es' : List Drawn} (h : HasAll es way siblings) (sub : ∀ e ∈ es, e ∈ es') :
    HasAll es' way siblings :=
  fun index a listed => (h index a listed).imp fun _ ⟨mem, rest⟩ => ⟨sub _ mem, rest⟩

namespace Sprout

variable {x : Place × Adapter}

theorem way_eq (h : Sprout o way x es) (mem : e ∈ es) : ∃ rest, e.way = way ++ x.1 :: rest := by
  cases h with
  | hidden => cases mem
  | drawn _ _ below =>
    rcases List.mem_cons.1 mem with rfl | mem
    · exact ⟨[], rfl⟩
    · obtain ⟨place, rest, way_eq⟩ := below.below e mem
      exact ⟨place :: rest, by simpa using way_eq⟩

theorem only (h : Sprout o way x es) (mem : e ∈ es) :
    e.way = way ++ [x.1] ∧ e.node = x.2 ∨ ∃ p ∈ es, e.Among p.way p.children := by
  cases h with
  | hidden => cases mem
  | drawn _ _ below =>
    rcases List.mem_cons.1 mem with rfl | mem
    · exact .inl ⟨rfl, rfl⟩
    · rcases below.only e mem with top | ⟨p, other, child⟩
      · exact .inr ⟨_, List.mem_cons_self, top⟩
      · exact .inr ⟨p, List.mem_cons_of_mem _ other, child⟩

theorem top (h : Sprout o way x es) (shown : ¬o.Hides way.length) :
    ∃ e ∈ es, e.way = way ++ [x.1] ∧ e.node = x.2 := by
  cases h with
  | hidden h => exact absurd h shown
  | drawn => exact ⟨_, List.mem_cons_self, rfl, rfl⟩

theorem children {p : Drawn} (h : Sprout o way x es) (mem : p ∈ es)
    (shown : ¬o.Hides (p.depth + 1)) : HasAll es p.way p.children := by
  cases h with
  | hidden => cases mem
  | drawn _ _ below =>
    rcases List.mem_cons.1 mem with rfl | mem
    · refine (below.tops ?_).mono fun _ => List.mem_cons_of_mem _
      simpa [Drawn.depth] using shown
    · exact (below.children p mem shown).mono fun _ => List.mem_cons_of_mem _

theorem shown (h : Sprout o way x es) (mem : e ∈ es) : ¬o.Hides e.depth := by
  cases h with
  | hidden => cases mem
  | drawn h _ below =>
    rcases List.mem_cons.1 mem with rfl | mem
    · simpa [Drawn.depth] using h
    · exact below.shown e mem

theorem preorder (h : Sprout o way x es) : es.Pairwise fun e e' => e.address < e'.address := by
  cases h with
  | hidden => exact .nil
  | drawn _ _ below =>
    refine .cons (fun e mem => ?_) below.preorder
    obtain ⟨place, rest, way_eq⟩ := below.below e mem
    have later : e.address = (way ++ [x.1]).map Place.index ++
        place.index :: rest.map Place.index := by
      rw [Drawn.address, way_eq, List.map_append, List.map_cons]
    rw [later]
    exact lt_append_cons _ _ _

theorem oneLine (h : Sprout o way x es) (mem : e ∈ es) : '\n' ∉ e.rest.toList := by
  cases h with
  | hidden => cases mem
  | drawn _ oneLine below =>
    rcases List.mem_cons.1 mem with rfl | mem
    · exact oneLine
    · exact below.oneLine e mem

end Sprout

/-- What holds of the items one after the other holds of the results. -/
theorem forall₂_pairwise {P : α → β → Prop} {S : α → α → Prop} {T : β → β → Prop} {items : List α}
    {results : List β} (h : List.Forall₂ P items results) (ordered : items.Pairwise S)
    (carries : ∀ {x x' y y'}, S x x' → P x y → P x' y' → T y y') : results.Pairwise T := by
  induction h with
  | nil => exact .nil
  | cons first others ih =>
    obtain ⟨before, rest⟩ := List.pairwise_cons.1 ordered
    refine .cons (fun y mem => ?_) (ih rest)
    obtain ⟨x, listed, holds⟩ := forall₂_mem_left (List.Forall₂.flip (R := fun y x => P x y) others) mem
    exact carries (before x listed) first holds

theorem mem_places {x : Place × Adapter} :
    x ∈ places siblings ↔ x.1.siblings = siblings ∧ siblings[x.1.index]? = some x.2 := by
  obtain ⟨⟨listed, index⟩, a⟩ := x
  simp only [places, List.mem_map, Prod.exists, List.mk_mem_zipIdx_iff_getElem?]
  constructor
  · rintro ⟨b, n, there, e⟩
    cases e
    exact ⟨rfl, there⟩
  · rintro ⟨rfl, there⟩
    exact ⟨a, index, there, rfl⟩

theorem places_ordered (siblings : List Adapter) :
    (places siblings).Pairwise fun x y => x.1.index < y.1.index := by
  have indices : (places siblings).map (fun x => x.1.index) = List.range siblings.length := by
    rw [places, List.map_map, List.range_eq_range', ← List.zipIdx_map_snd]
    rfl
  rw [← List.pairwise_map (f := fun x : Place × Adapter => x.1.index) (R := (· < ·)), indices]
  exact List.pairwise_lt_range

/-- The trees of some siblings one after the other. -/
theorem Mirrors.of_sprouts {ess : List (List Drawn)}
    (h : List.Forall₂ (Sprout o way) (places siblings) ess) : Mirrors o way siblings ess.flatten := by
  have grown : ∀ {e : Drawn}, e ∈ ess.flatten → ∃ x ∈ places siblings, ∃ es, e ∈ es ∧
      (∀ e' ∈ es, e' ∈ ess.flatten) ∧ Sprout o way x es := by
    intro e mem
    obtain ⟨es, listed, mem⟩ := List.mem_flatten.1 mem
    obtain ⟨x, place, sprout⟩ :=
      forall₂_mem_left (List.Forall₂.flip (R := fun es x => Sprout o way x es) h) listed
    exact ⟨x, place, es, mem, fun e' mem' => List.mem_flatten.2 ⟨es, listed, mem'⟩, sprout⟩
  constructor
  case only =>
    intro e mem
    obtain ⟨⟨place, b⟩, listed, es, own, sub, sprout⟩ := grown mem
    obtain ⟨rfl, there⟩ := mem_places.1 listed
    rcases sprout.only own with ⟨way_eq, node_eq⟩ | ⟨p, mem, child⟩
    · exact .inl ⟨place.index, way_eq, node_eq ▸ there⟩
    · exact .inr ⟨p, sub p mem, child⟩
  case tops =>
    intro shown index b there
    obtain ⟨es, listed, sprout⟩ :=
      forall₂_mem_left h ((mem_places (x := (⟨siblings, index⟩, b))).2 ⟨rfl, there⟩)
    obtain ⟨e, mem, drawn⟩ := sprout.top shown
    exact ⟨e, List.mem_flatten.2 ⟨es, listed, mem⟩, drawn⟩
  case children =>
    intro p mem shown
    obtain ⟨x, -, es, own, sub, sprout⟩ := grown mem
    exact (sprout.children own shown).mono sub
  case shown =>
    intro e mem
    obtain ⟨x, -, es, own, -, sprout⟩ := grown mem
    exact sprout.shown own
  case preorder =>
    refine List.pairwise_flatten.2 ⟨fun es listed => ?_, ?_⟩
    · obtain ⟨x, -, sprout⟩ :=
        forall₂_mem_left (List.Forall₂.flip (R := fun es x => Sprout o way x es) h) listed
      exact sprout.preorder
    · refine forall₂_pairwise h (places_ordered siblings) ?_
      intro x x' es es' before sprout sprout' e mem e' mem'
      obtain ⟨rest, way_eq⟩ := sprout.way_eq mem
      obtain ⟨rest', way_eq'⟩ := sprout'.way_eq mem'
      rw [Drawn.address, Drawn.address, way_eq, way_eq', List.map_append, List.map_append]
      exact List.append_left_lt (List.cons_lt_cons_iff.2 (.inl before))
  case below =>
    intro e mem
    obtain ⟨x, -, es, own, -, sprout⟩ := grown mem
    exact ⟨x.1, sprout.way_eq own⟩
  case oneLine =>
    intro e mem
    obtain ⟨x, -, es, own, -, sprout⟩ := grown mem
    exact sprout.oneLine own

/-! ### Drawing -/

theorem Line.newline_notMem_rest (l : Line) : '\n' ∉ l.rest.toList := by
  have shown := newline_notMem_shown .ascii l
  rw [Line.shown, Line.words_eq, String.toList_append, String.toList_append, List.mem_append,
    List.mem_append, not_or, not_or] at shown
  exact shown.2.2

/-- What is drawn of a node whose levels are all within reach is a tree, whatever the others do
meanwhile. -/
theorem drawUnder_meets (way : List Place) {levels : Nat} {x : Place × Adapter} (h : m.Lived)
    (known : .made x.2 ∈ m.past) (enough : x.2.identity.levels ≤ levels) :
    (drawUnder o levels (way ++ [x.1]) x.2).Meets m fun _ es => Sprout o way x es := by
  induction levels generalizing way x m with
  | zero => cases isNode : x.2.identity <;> rw [isNode] at enough <;> cases enough
  | succ levels ih =>
    have depth : (way ++ [x.1]).length - 1 = way.length := by simp
    unfold drawUnder
    rw [depth]
    split
    · exact .pure (.hidden ‹_›)
    · refine Act.Meets.next (Q := fun _ rest => '\n' ∉ rest.toList)
        (.map ((line_lawful h o []).mono fun _ l _ _ _ => l.newline_notMem_rest))
        fun m₁ rest goes₁ _ oneLine => ?_
      refine (Adapter.treeChildren_below (h.goes goes₁) (goes₁.remembers known)).next
        fun m₂ children goes₂ _ below => ?_
      refine Act.Meets.next (Act.Meets.each_forall₂ (R := Sprout o (way ++ [x.1])) ?_)
        fun _ ess _ _ sprouts => .pure (.drawn ‹_› oneLine (.of_sprouts sprouts))
      intro m₃ child goes₃ listed
      obtain ⟨made, less⟩ := below child.2 (List.mem_of_getElem? (mem_places.1 listed).2)
      exact ih _ (h.goes (goes₁.trans (goes₂.trans goes₃))) (goes₃.remembers made) (by omega)

end Outline

end TableAccess
