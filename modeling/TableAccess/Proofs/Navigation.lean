import TableAccess.Proofs.Calm
import TableAccess.Proofs.Gathering

/-!
# Ways through the serialized tree

Parent, children and position of a node are answered independently of each other: the parent from a key
that was stored when the node was made, the children from the counts of the table, the position from a
reading of its own. As long as the contents stay they agree: whoever goes up from a node and down again,
to the child of the node's kind at the node's position, is back.

## The model

* `Identity.parent?` — what the parent of a part stands for.
* `Stage.Stores` — a node of the table is in the tree.
* `Brings.parentOf` — a node answers its parent.
* `Names.child` — what the child of a node answers.
* `Stage.Later` — there may be more nodes, and the table is as it was.
* `navigation_is_consistent` — the main statement.
-/

namespace TableAccess

variable {μ α : Type} {R : World μ → World μ → Prop} {w w' : World μ} {s : Stage}
  {E : Tree → Tree → Prop} {i j : Identity} {k : NodeKey} {a x y : Adapter} {g : Grid} {n : Nat}

/-! ### Positions -/

/-- What the parent of a part stands for. A table has none. -/
def Identity.parent? : Identity → Option Identity
  | .table _ => none
  | .row k _ => some (.table k)
  | .column k _ => some (.table k)
  | .cell k r _ => some (.row k r)

namespace Grid

theorem parent?_of_branch (h : j ∈ g.branches i) : j.parent? = some i := by
  rcases (g.divided_branches i).of_mem h with ⟨k, r, rfl, rfl⟩ | ⟨k, c, rfl, rfl⟩ |
    ⟨k, r, c, rfl, rfl⟩ <;> rfl

/-- A part that is there is a branch of its parent. -/
theorem Includes.branch_of_parent? (h : g.Includes j) (parent : j.parent? = some i) :
    j ∈ g.branches i := by
  cases j with
  | table k => cases parent
  | row k r =>
    cases parent
    exact List.mem_append_left _ (List.mem_map.2 ⟨r, List.mem_range.2 h, rfl⟩)
  | column k c =>
    cases parent
    exact List.mem_append_right _ (List.mem_map.2 ⟨c, List.mem_range.2 h, rfl⟩)
  | cell k r c =>
    cases parent
    have cells : g.branches (.row k r) = (List.range g.headers.length).map (.cell k r) := if_pos h.1
    exact cells ▸ List.mem_map.2 ⟨c, List.mem_range.2 h.2, rfl⟩

theorem nodup_branches (g : Grid) (i : Identity) : (g.branches i).Nodup :=
  (g.divided_branches i).apart.imp fun {j j'} apart same => by
    subst same
    exact apart j (.refl j) (.refl j)

/-- Counted parts of one kind. -/
theorem countP_take {count : Nat} (role : Role) (part : Nat → Identity)
    (kind : ∀ m, (part m).role = role) (le : n ≤ count) :
    (((List.range count).map part).take n).countP (·.role = role) = n := by
  rw [List.countP_eq_length.2, List.length_take, List.length_map, List.length_range,
    Nat.min_eq_left le]
  intro j hj
  obtain ⟨m, -, rfl⟩ := List.mem_map.1 (List.mem_of_mem_take hj)
  exact decide_eq_true (kind m)

/-- A branch has as many of its kind before it as its position says. -/
theorem position_of_branch (h : (g.branches i)[n]? = some j) :
    j.position = some (((g.branches i).take n).countP (·.role = j.role)) := by
  have counted : ∀ {part : Nat → Identity} {count m : Nat},
      ((List.range count).map part)[m]? = some j → m < count ∧ part m = j := by
    intro part count m h
    rw [List.getElem?_map, Option.map_eq_some_iff] at h
    obtain ⟨m', hm, e⟩ := h
    obtain ⟨less, rfl⟩ := List.getElem?_eq_some_iff.1 hm
    rw [List.length_range] at less
    rw [List.getElem_range] at e
    exact ⟨less, e⟩
  cases i with
  | table k =>
    have parts : g.branches (.table k) = (List.range g.rows.length).map (.row k) ++
        (List.range g.headers.length).map (.column k) := rfl
    rw [parts] at h ⊢
    -- a column has all rows before it, but those are of another kind
    have rows : ((List.range g.rows.length).map (Identity.row k)).length = g.rows.length := by simp
    rcases Nat.lt_or_ge n g.rows.length with less | more
    · rw [List.getElem?_append_left (by omega)] at h
      obtain ⟨-, rfl⟩ := counted h
      have before := countP_take .row (.row k) (fun _ => rfl) (Nat.le_of_lt less)
      rw [List.take_append_of_le_length (by omega), Identity.role, before]
      rfl
    · rw [List.getElem?_append_right (by omega), rows] at h
      obtain ⟨less, rfl⟩ := counted h
      have before := countP_take .column (.column k) (fun _ => rfl) (Nat.le_of_lt less)
      rw [List.take_append, rows, List.take_of_length_le (by omega), List.countP_append, Identity.role,
        before, List.countP_eq_zero.2]
      · simp [Identity.position]
      · intro j hj
        obtain ⟨r, -, rfl⟩ := List.mem_map.1 hj
        simp [Identity.role]
  | row k r =>
    simp only [branches, parts] at h ⊢
    split at h
    · rename_i there
      rw [if_pos there]
      obtain ⟨less, rfl⟩ := counted h
      have before := countP_take .cell (.cell k r) (fun _ => rfl) (Nat.le_of_lt less)
      rw [Identity.role, before]
      rfl
    · cases h
  | column k c | cell k r c => cases h

end Grid

/-! ### Up and down -/

namespace Stage

/-- The node of a part has the key of its parent's node. -/
theorem Finds.parent_eq (hx : s.Finds w i x) (hy : s.Finds w j y) (parent : j.parent? = some i)
    (stands : s.Stands w) : y.parent = some x.key := by
  obtain ⟨tree, ht, plants, stored, identity⟩ := hy.stored stands
  rcases plants.coherent.parent stored with ⟨-, isTable⟩ | ⟨p, e, isParent⟩
  · rw [identity] at isTable
    rw [isTable] at parent
    cases parent
  · rw [identity] at isParent
    rw [e]
    cases isParent with
    | row k r =>
      cases parent
      rw [hx.key stands, ← hy.own]
      rfl
    | column k c =>
      cases parent
      rw [hx.key stands, ← hy.own]
      rfl
    | @cell k r b found =>
      cases parent
      rw [hx.unique ⟨hx.own, tree, ht, found⟩]

/-- The parent of a part that has a node has a node. -/
theorem Finds.has_parent (hy : s.Finds w j y) (parent : j.parent? = some i) (stands : s.Stands w) :
    ∃ x, s.Finds w i x := by
  obtain ⟨tree, ht, plants, stored, identity⟩ := hy.stored stands
  have own := hy.own
  cases j with
  | table k => cases parent
  | row k r | column k c =>
    cases parent
    obtain rfl : k = s.key := own
    exact stands.root
  | cell k r c =>
    cases parent
    obtain ⟨x, -, stored', isRow⟩ := plants.coherent.row_of_cell stored identity
    exact ⟨x, own, tree, ht, plants.coherent.indexed.find?_eq_some_iff.2 ⟨stored', isRow⟩⟩

/-- The node of a part is found where it is. -/
theorem Finds.node_run (found : s.Finds w i a) (stands : s.Stands w) :
    s.node i w = .done (.ok a) w := by
  have own := found.own
  cases i with
  | table k | row k row | column k column =>
    obtain rfl : k = s.key := own
    exact obtain_found found
  | cell k row column =>
    -- the cell has its row's node for a parent, and that is found first
    obtain rfl : k = s.key := own
    obtain ⟨b, row⟩ := found.has_parent rfl stands
    show TableAccess.cellNode _ _ _ _ _ w = _
    unfold TableAccess.cellNode TableAccess.rowNode
    rw [Act.bind_apply, obtain_found row]
    exact obtain_found found

end Stage

/-- The parent of a node is the node of its parent. -/
theorem Act.Brings.parentOf (bears : s.Bears E R) (ready : s.Ready w) (hx : s.Finds w i x)
    (hy : s.Finds w j y) (parent : j.parent? = some i) :
    y.parentOf.Brings s E R [] (fun result _ => result = some x) w := by
  obtain ⟨tree, ht, plants, stored, -⟩ := hx.stored ready.toStands
  have held : y.tree? w = some tree := by
    rw [Adapter.tree?, hy.tree ready.toStands, ht, Option.filter_some, if_pos plants.alive]
  have hp := ready.peer
  rw [← hy.peer ready.toStands] at hp
  have run := Adapter.parentNode_run held hp rfl
  rw [hx.parent_eq hy parent ready.toStands, Option.bind_some, stored] at run
  have asks : y.parentOf w = y.parentNode w := by
    unfold Adapter.parentOf
    rw [hy.identity ready.toStands]
    cases j with
    | table k => cases parent
    | _ => rfl
  exact of_done (asks.trans run) ready (.of_trees bears ready.toStands rfl) rfl

/-- The item at a place is the one among its like that has as many of them before it. -/
theorem getElem?_filter {P : α → Bool} {items : List α} {item : α} (h : items[n]? = some item)
    (like : P item = true) : (items.filter P)[(items.take n).countP P]? = some item := by
  obtain ⟨less, rfl⟩ := List.getElem?_eq_some_iff.1 h
  have split : items = items.take n ++ items[n] :: items.drop (n + 1) := by
    rw [← List.drop_eq_getElem_cons less, List.take_append_drop]
  have before : ((items.take n).filter P).length = (items.take n).countP P :=
    List.countP_eq_length_filter.symm
  conv =>
    lhs
    lhs
    rw [split]
  rw [List.filter_append, List.filter_cons_of_pos like, ← before,
    List.getElem?_append_right (Nat.le_refl _), Nat.sub_self]
  rfl

namespace Stage

/-- A node of the table is in the tree. -/
def Stores (s : Stage) (w : World μ) (a : Adapter) : Prop :=
  a.tableKey = s.key ∧ ∃ tree, w.trees[s.tree]? = some tree ∧ tree.get? a.key = some a

theorem Stores.finds (h : s.Stores w a) (stands : s.Stands w) : s.Finds w a.identity a := by
  obtain ⟨own, tree, ht, stored⟩ := h
  obtain ⟨tree', ht', plants⟩ := stands.planted
  rw [ht] at ht'
  cases ht'
  exact ⟨own, tree, ht, plants.coherent.indexed.find?_identity stored⟩

/-- A child has its parent, and as many siblings of its kind before it as its position says. -/
theorem Names.child {nodes : List Adapter} (bears : s.Bears E R) (ready : s.Ready w)
    (hx : s.Finds w i x) (named : s.Names w (s.grid.branches i) nodes)
    (hy : nodes[n]? = some y) :
    (y.parentOf w).ComesTo R (fun parent _ => parent = .ok (some x)) ∧
      (y.indexInParent w).ComesTo R fun index _ =>
        index = .ok (some ((nodes.take n).countP (·.role = y.role))) := by
  have identities := named.identities ready.toStands
  have branch : (s.grid.branches i)[n]? = some y.identity := by
    rw [← identities, List.getElem?_map, hy]
    rfl
  obtain ⟨mem, found⟩ := named.finds ready.toStands (List.mem_of_getElem? hy)
  refine ⟨(Act.Brings.parentOf bears ready hx found (Grid.parent?_of_branch mem)).comes.mono ?_,
    (Act.Brings.indexInParent bears ready found (Grid.includes_of_branch mem).1).comes.mono ?_⟩
  · intro result w' outcome
    obtain ⟨parent, rfl, -, -, rfl⟩ := outcome.of_nil
    rfl
  · intro result w' outcome
    obtain ⟨index, rfl, -, -, rfl⟩ := outcome.of_nil
    rw [Grid.position_of_branch branch, ← identities, ← List.map_take, List.countP_map]
    rfl

/-- A part that is there is the node of exactly one child of its parent's node. -/
theorem Names.counts {nodes : List Adapter} (ready : s.Ready w) (hy : s.Finds w j y)
    (named : s.Names w (s.grid.branches i) nodes) (branch : j ∈ s.grid.branches i) :
    nodes.count y = 1 := by
  obtain ⟨b, mem, found⟩ := forall₂_mem_left named branch
  rw [hy.unique found]
  refine List.count_eq_one_of_mem (.of_map Adapter.identity ?_) mem
  rw [named.identities ready.toStands]
  exact s.grid.nodup_branches i

/-- The table is still in its place, its nodes have stayed, and there may be more of them. -/
def Later (s : Stage) (w w' : World μ) : Prop :=
  s.Ready w' ∧ ∃ parts, s.Since s.Keeps parts w w'

theorem Ready.later (ready : s.Ready w) : s.Later w w :=
  ⟨ready, [], .of_trees (Keeps.bears s) ready.toStands rfl⟩

end Stage

/-- **Navigation is consistent.** For a node of a table whose contents stay, each child that it has in
the serialized tree answers that it is the child's parent, and that the child's position is the number
of children of the child's kind before it. Conversely each row, column and cell that is there is exactly
one of its parent's children, and the one of its kind at its position: the way up and down again leads
back. -/
theorem navigation_is_consistent {m : Moment μ} (h : m.Lived) (set : s.Set m) :
    (∀ {x : Adapter}, s.Stores m.world x → x.treeChildren.Brings s s.Keeps (s.Calm s.Keeps)
      ((s.grid.branches x.identity).flatMap Grid.asked)
      (fun nodes w => ∀ {n : Nat} {y : Adapter}, nodes[n]? = some y → ∀ later, s.Later w later →
        (y.parentOf later).ComesTo (s.Calm s.Keeps) (fun parent _ => parent = .ok (some x)) ∧
          (y.indexInParent later).ComesTo (s.Calm s.Keeps) fun index _ =>
            index = .ok (some ((nodes.take n).countP (·.role = y.role)))) m.world) ∧
    ∀ {y : Adapter}, s.Stores m.world y → y.role ≠ .table → s.grid.Includes y.identity →
      (y.parentOf m.world).ComesTo (s.Calm s.Keeps) fun parent w =>
        ∃ x, parent = .ok (some x) ∧ ∀ later, s.Later w later →
          x.treeChildren.Brings s s.Keeps (s.Calm s.Keeps)
            ((s.grid.branches x.identity).flatMap Grid.asked)
            (fun nodes w' => nodes.count y = 1 ∧ ∀ later, s.Later w' later →
              (y.indexInParent later).ComesTo (s.Calm s.Keeps) fun index _ =>
                ∃ n, index = .ok (some n) ∧ (nodes.filter (·.role = y.role))[n]? = some y) later := by
  have bears := Stage.Keeps.bears (μ := μ) s
  have ready := set.ready h
  constructor
  · intro x stored
    have hx := stored.finds ready.toStands
    refine (Act.Brings.treeChildren bears ready hx).mono ?_
    rintro nodes w - since ⟨named, -⟩ n y hy later ⟨ready', parts, since'⟩
    exact (named.since since').child bears ready' (since'.stays (since.stays hx)) hy
  · intro y stored notTable there
    have hy := stored.finds ready.toStands
    obtain ⟨i, parent⟩ : ∃ i, y.identity.parent? = some i := by
      rw [Adapter.role] at notTable
      cases e : y.identity with
      | table k => exact absurd (congrArg Identity.role e) notTable
      | _ => exact ⟨_, rfl⟩
    obtain ⟨x, hx⟩ := hy.has_parent parent ready.toStands
    have branch := there.branch_of_parent? parent
    refine (Act.Brings.parentOf bears ready hx hy parent).comes.mono ?_
    rintro result w outcome
    obtain ⟨parent, rfl, -, since, rfl⟩ := outcome.of_nil
    refine ⟨x, rfl, ?_⟩
    rintro later ⟨ready₁, parts, since₁⟩
    have hx₁ := since₁.stays (since.stays hx)
    have hy₁ := since₁.stays (since.stays hy)
    rw [hx₁.identity ready₁.toStands]
    refine (Act.Brings.treeChildren bears ready₁ hx₁).mono ?_
    rintro nodes w₂ ready₂ since₂ ⟨named, -⟩
    refine ⟨named.counts ready₂ (since₂.stays hy₁) branch, ?_⟩
    rintro later ⟨ready₃, parts, since₃⟩
    obtain ⟨n, hn⟩ := List.getElem?_of_mem (List.count_pos_iff.1
      (named.counts ready₂ (since₂.stays hy₁) branch ▸ Nat.one_pos))
    have child := (named.since since₃).child bears ready₃
      (since₃.stays (since₂.stays hx₁)) hn
    refine child.2.mono ?_
    rintro index w' rfl
    exact ⟨_, rfl, getElem?_filter hn (decide_eq_true rfl)⟩

/-- An editable table was attached, and a node was made for its first row. -/
theorem Stage.set_row {g : Grid} (rectangular : g.Rectangular) : ∃ m : Moment Unit, m.Lived ∧
    (⟨0, Arena.keyAt 0 1, 0, 0, 0, g⟩ : Stage).Set m ∧
    m.world = (World.attached () (.toolkit 0) (Context.start .default)
      (.grid (.ofGrid g))).modifyTree 0
        (·.add ⟨Arena.keyAt 1 1, .row (Arena.keyAt 0 1) 0, some (Arena.keyAt 0 1), 0, 0⟩) := by
  obtain ⟨m, lived, e, untouched⟩ := Moment.lived_of_part (.grid (.ofGrid g))
    Context.spawn_default (.grid rectangular) () (.toolkit 0) (.inl rfl)
  refine ⟨m, lived, ⟨⟨_, _, by rw [e]; rfl, rfl, rfl, rfl, rfl, rfl⟩,
    ⟨_, by rw [e]; rfl, rfl⟩, ⟨none, by rw [e]; rfl, fun c owner => by cases owner⟩,
    ⟨.start .default, by rw [e]; rfl, fun away => absurd (by rw [e]; rfl) away⟩, ?_⟩, e⟩
  refine (lived.corresponds (by rw [e]; rfl)).once ?_
  rw [(untouched 0).2]
  decide

/-- From the row of a table with one cell the way leads up to the table, and down again. -/
theorem navigation_is_consistent_row :
    ∃ (m : Moment Unit) (s : Stage) (x y : Adapter) (nodes : List Adapter) (w : World Unit),
      m.Lived ∧ s.Set m ∧ s.Stores m.world x ∧ s.Stores m.world y ∧ s.grid.Includes y.identity ∧
      y.parentOf m.world = .done (.ok (some x)) m.world ∧
      x.treeChildren m.world = .done (.ok nodes) w ∧ nodes.map Adapter.role = [.row, .column] ∧
      nodes.count y = 1 ∧ ∀ z ∈ nodes, (z.parentOf w).ComesTo (s.Calm s.Keeps) fun parent _ =>
        parent = .ok (some x) := by
  obtain ⟨m, lived, set, e⟩ := Stage.set_row (g := ⟨"", ["h"], [["x"]]⟩) (by simp [Grid.Rectangular])
  obtain ⟨down, up⟩ := navigation_is_consistent lived set
  have hx : (⟨0, Arena.keyAt 0 1, 0, 0, 0, ⟨"", ["h"], [["x"]]⟩⟩ : Stage).Stores m.world
      ⟨Arena.keyAt 0 1, .table (Arena.keyAt 0 1), none, 0, 0⟩ := ⟨rfl, _, by rw [e]; rfl, rfl⟩
  have hy : (⟨0, Arena.keyAt 0 1, 0, 0, 0, ⟨"", ["h"], [["x"]]⟩⟩ : Stage).Stores m.world
      ⟨Arena.keyAt 1 1, .row (Arena.keyAt 0 1) 0, some (Arena.keyAt 0 1), 0, 0⟩ :=
    ⟨rfl, _, by rw [e]; rfl, rfl⟩
  have parent : Adapter.parentOf
      ⟨Arena.keyAt 1 1, .row (Arena.keyAt 0 1) 0, some (Arena.keyAt 0 1), 0, 0⟩ m.world =
        .done (.ok (some ⟨Arena.keyAt 0 1, .table (Arena.keyAt 0 1), none, 0, 0⟩)) m.world := by
    rw [e]
    rfl
  have up := up hy (by decide) Nat.one_pos
  rw [parent] at up
  obtain ⟨x, same, up⟩ := up
  cases same
  have roles : ((Adapter.treeChildren ⟨Arena.keyAt 0 1, .table (Arena.keyAt 0 1), none, 0, 0⟩
      m.world).value?.map fun nodes => nodes.map Adapter.role) = some [.row, .column] := by
    rw [e]
    decide +kernel
  obtain ⟨nodes, value, roles⟩ := Option.map_eq_some_iff.1 roles
  obtain ⟨w, run, ready, leads⟩ := (down hx).of_value value
  obtain ⟨_, _, -, once, -⟩ := (up m.world (set.ready lived).later).of_value value
  refine ⟨m, _, _, _, nodes, w, lived, set, hx, hy, Nat.one_pos, parent, run, roles, once, ?_⟩
  intro z mem
  obtain ⟨n, hn⟩ := List.getElem?_of_mem mem
  exact (leads hn w ready.later).1

end TableAccess
