import TableAccess.Proofs.Growth
import TableAccess.Proofs.Layout
import TableAccess.Proofs.Queries

/-!
# Reading a table that stays as it is

Who reads an editable table whose contents stay, through a context that does what is handed over to it,
gets what the contents say, and finds or makes nodes in a tree that only grows. What the others do
meanwhile is theirs: they may do anything else, to the tree too, as long as the nodes of the table stay.

## The model

* `Progress.ComesTo` — an act is over as it should, if all its tasks are done and answered.
* `Stage` — an editable table in a tree; `Stage.Ready` — it is there and its context responds.
* `Stage.Bears` — what the others may do meanwhile.
* `Stage.Outcome` — what comes of an act: a value, or there is no room for another node.
* `Act.Brings` — an act comes to that.
* `Brings.bind`, `Brings.each`, `Brings.read`, … — one rule for each way to put acts together, and
  for each thing an act can do with the table.
-/

namespace TableAccess

variable {μ α β : Type} {R : World μ → World μ → Prop} {w w' w'' : World μ}

/-! ### Acts whose tasks are answered -/

namespace Progress

/-- An act that has come so far is over as `post` says, if all tasks that it calls are done and
answered. The thread of the context finds a world as `R` lets it when it does a task, and so does the
caller when it goes on. -/
def ComesTo {α : Type} (R : World μ → World μ → Prop) (post : Except Panic α → World μ → Prop) :
    Progress μ α → Prop
  | .done result w => post result w
  | .calling c _ _ task w next => ∀ s, R w s → s.thread = .toolkit c →
      (task s).ComesTo R fun answer s' => ∀ later, R s' later → later.thread = w.thread →
        (next (some answer) later).ComesTo R post
  | .awaiting _ _ _ _ => False
  | .leaving _ _ _ _ _ => False
  | .starting _ _ _ _ => False

variable {post post' : Except Panic α → World μ → Prop}

theorem ComesTo.mono {p : Progress μ α} (h : p.ComesTo R post)
    (weaker : ∀ {result w}, post result w → post' result w) : p.ComesTo R post' := by
  induction p with
  | done result w => exact weaker h
  | calling c k bound task w next ihTask ih =>
    intro s between here
    refine ihTask s (h s between here) ?_
    intro answer s' answered later between' back
    exact ih (some answer) later (answered later between' back) weaker
  | awaiting | leaving | starting => exact h

/-- An act that is over is over as it should. -/
theorem ComesTo.of_value {p : Progress μ α} {a : α} (h : p.ComesTo R post)
    (value : p.value? = some a) : ∃ w', p = .done (.ok a) w' ∧ post (.ok a) w' := by
  cases p with
  | done result w' =>
    cases result with
    | ok b =>
      cases value
      exact ⟨w', rfl, h⟩
    | error e => cases value
  | _ => cases value

/-- One act after another. -/
theorem ComesTo.bind {p : Progress μ α} {f : α → Act μ β} {post' : Except Panic β → World μ → Prop}
    (h : p.ComesTo R post) (ok : ∀ {a w}, post (.ok a) w → (f a w).ComesTo R post')
    (error : ∀ {e w}, post (.error e) w → post' (.error e) w) : (p.bind f).ComesTo R post' := by
  induction p with
  | done result w =>
    cases result with
    | ok a => exact ok h
    | error e => exact error h
  | calling c k bound task w next _ ih =>
    intro s between here
    refine (h s between here).mono ?_
    intro answer s' answered later between' back
    exact ih (some answer) later (answered later between' back) ok error
  | awaiting | leaving | starting => exact h

end Progress

/-! ### A table in a tree -/

namespace World

/-- An editable table presents some contents to the thread of a context. -/
def Presents (w : World μ) (c : ContextId) (table : TableId) (g : Grid) : Prop :=
  ∃ owner, w.table? table = some (.grid ⟨g, owner, false⟩) ∧ ∀ c', owner = some c' → c' = c

/-- A context does what is handed over to it: it is there, and to another thread it has room for a
task and a time that the clock can tell. -/
def Responds (w : World μ) (c : ContextId) : Prop :=
  ∃ context, w.contexts[c]? = some context ∧ (w.thread ≠ .toolkit c →
    (∃ accepted, context.accept w.tickets = .ok accepted) ∧ context.timeout.FitsClock w.clock)

end World

/-- An editable table in a tree. -/
structure Stage where
  /-- The tree. -/
  tree : TreeId
  /-- The key of the table's node. -/
  key : NodeKey
  /-- The peer of the table's nodes. -/
  peer : PeerId
  /-- The context that reads the table. -/
  context : ContextId
  /-- The table. -/
  table : TableId
  /-- Its contents. -/
  grid : Grid

namespace Stage

/-- A tree has the table's node, and the nodes of the table have its peer. -/
structure Plants (s : Stage) (tree : Tree) : Prop where
  /-- Some bridge holds the tree. -/
  alive : tree.alive = true
  /-- The tree is coherent. -/
  coherent : tree.Coherent s.tree
  /-- The table's node is there. -/
  root : (tree.find? (.table s.key)).isSome
  /-- The nodes have one peer. -/
  peers : ∀ {k : NodeKey} {a : Adapter}, tree.get? k = some a → a.tableKey = s.key → a.peer = s.peer

/-- The table is in its place. -/
structure Stands (s : Stage) (w : World μ) : Prop where
  /-- The peer refers to the table. -/
  peer : w.peers[s.peer]? = some ⟨s.table, s.context, false⟩
  /-- The table presents its contents. -/
  presents : w.Presents s.context s.table s.grid
  /-- Every row has a cell for each header. -/
  rectangular : s.grid.Rectangular
  /-- The tree has its nodes. -/
  planted : ∃ tree, w.trees[s.tree]? = some tree ∧ s.Plants tree

/-- The table is in its place, and its context responds. -/
structure Ready (s : Stage) (w : World μ) : Prop extends s.Stands w where
  /-- The context responds. -/
  responds : w.Responds s.context

/-- A part of the table has its node. -/
structure Finds (s : Stage) (w : World μ) (i : Identity) (a : Adapter) : Prop where
  /-- It is a part of the table. -/
  own : i.tableKey = s.key
  /-- The node is in the tree. -/
  found : ∃ tree, w.trees[s.tree]? = some tree ∧ tree.find? i = some a

/-- All parts of the table have their nodes. -/
def Whole (s : Stage) (w : World μ) : Prop :=
  ∀ i, i.tableKey = s.key → s.grid.Includes i → ∃ a, s.Finds w i a

variable {s : Stage} {i : Identity} {a b : Adapter}

theorem Stands.congr (h : s.Stands w) (peers : w'.peers = w.peers) (tables : w'.tables = w.tables)
    (trees : w'.trees = w.trees) : s.Stands w' := by
  refine ⟨peers ▸ h.peer, ?_, h.rectangular, trees ▸ h.planted⟩
  unfold World.Presents World.table?
  rw [tables]
  exact h.presents

theorem Ready.tell (h : s.Ready w) (e : Event) : s.Ready (w.tell e) :=
  ⟨h.toStands.congr rfl rfl rfl, h.responds⟩

namespace Finds

theorem congr (h : s.Finds w i a) (trees : w'.trees[s.tree]? = w.trees[s.tree]?) : s.Finds w' i a :=
  ⟨h.own, trees ▸ h.found⟩

/-- A part has one node. -/
theorem unique (h : s.Finds w i a) (h' : s.Finds w i b) : a = b := by
  obtain ⟨tree, ht, found⟩ := h.found
  obtain ⟨tree', ht', found'⟩ := h'.found
  rw [ht] at ht'
  cases ht'
  rw [found] at found'
  exact Option.some.inj found'

/-- The node lies under its key and stands for the part. -/
theorem stored (h : s.Finds w i a) (stands : s.Stands w) :
    ∃ tree, w.trees[s.tree]? = some tree ∧ s.Plants tree ∧ tree.get? a.key = some a ∧
      a.identity = i := by
  obtain ⟨tree, ht, plants⟩ := stands.planted
  obtain ⟨tree', ht', found⟩ := h.found
  rw [ht] at ht'
  cases ht'
  obtain ⟨stored, identity⟩ := plants.coherent.indexed.find?_eq_some_iff.1 found
  exact ⟨tree, ht, plants, stored, identity⟩

theorem identity (h : s.Finds w i a) (stands : s.Stands w) : a.identity = i := by
  obtain ⟨tree, -, -, -, identity⟩ := h.stored stands
  exact identity

theorem tree (h : s.Finds w i a) (stands : s.Stands w) : a.tree = s.tree := by
  obtain ⟨tree, -, plants, stored, -⟩ := h.stored stands
  exact plants.coherent.here stored

theorem tableKey (h : s.Finds w i a) (stands : s.Stands w) : a.tableKey = s.key := by
  rw [Adapter.tableKey, h.identity stands, h.own]

theorem peer (h : s.Finds w i a) (stands : s.Stands w) : a.peer = s.peer := by
  obtain ⟨tree, -, plants, stored, -⟩ := h.stored stands
  exact plants.peers stored (h.tableKey stands)

/-- The table's node has the table's key. -/
theorem key {k : NodeKey} (h : s.Finds w (.table k) a) (stands : s.Stands w) : a.key = s.key := by
  have holds : w.Holds s.tree a := by
    obtain ⟨tree, ht, plants, stored, -⟩ := h.stored stands
    exact ⟨tree, ht, plants.coherent, stored⟩
  rw [holds.own (h.identity stands)]
  exact h.own

/-- A bridge holds the tree. -/
theorem held (h : s.Finds w i a) (stands : s.Stands w) : (a.tree? w).isSome := by
  obtain ⟨tree, ht, plants, -, -⟩ := h.stored stands
  rw [Adapter.tree?, h.tree stands, ht]
  simp [plants.alive]

end Finds

/-! ### What the others do -/

/-- What the others do while an act has stopped leaves the table in its place and its nodes in the tree,
to which they do no more than `E` says; and the context responds. -/
structure Bears (s : Stage) (E : Tree → Tree → Prop) (R : World μ → World μ → Prop) : Prop where
  /-- They may do nothing. -/
  refl : ∀ tree, E tree tree
  /-- They may go on. -/
  trans : ∀ {tree₁ tree₂ tree₃ : Tree}, E tree₁ tree₂ → E tree₂ tree₃ → E tree₁ tree₃
  /-- The nodes of the table stay. -/
  stays : ∀ {tree tree' : Tree} {i : Identity} {a : Adapter}, E tree tree' → i.tableKey = s.key →
    tree.find? i = some a → tree'.find? i = some a
  /-- The table stays in its place, and the context responds. -/
  ready : ∀ {w w' : World μ}, s.Stands w → R w w' → s.Ready w' ∧ ∃ tree tree',
    w.trees[s.tree]? = some tree ∧ w'.trees[s.tree]? = some tree' ∧ E tree tree'

/-- From one world to a later one the tree has grown by the nodes of some parts. -/
structure Since (s : Stage) (E : Tree → Tree → Prop) (parts : List Identity) (w w' : World μ) :
    Prop where
  /-- So it has grown. -/
  grows : ∃ tree tree', w.trees[s.tree]? = some tree ∧ w'.trees[s.tree]? = some tree' ∧
    tree.Grows E s.tree s.peer parts tree'
  /-- The nodes of the table have stayed. -/
  stays : ∀ {i : Identity} {a : Adapter}, s.Finds w i a → s.Finds w' i a

variable {E : Tree → Tree → Prop} {parts parts' : List Identity}

/-- Nothing has become of the tree. -/
theorem Since.of_trees (bears : s.Bears E R) (stands : s.Stands w)
    (trees : w'.trees[s.tree]? = w.trees[s.tree]?) : s.Since E [] w w' := by
  obtain ⟨tree, ht, -⟩ := stands.planted
  exact ⟨⟨tree, tree, ht, trees.trans ht, .still (bears.refl tree)⟩, fun h => h.congr trees⟩

theorem Since.trans (bears : s.Bears E R) (h : s.Since E parts w w') (h' : s.Since E parts' w' w'') :
    s.Since E (parts ++ parts') w w'' := by
  obtain ⟨tree, tree', ht, ht', grows⟩ := h.grows
  obtain ⟨tree₁, tree'', ht₁, ht'', grows'⟩ := h'.grows
  rw [ht'] at ht₁
  cases ht₁
  exact ⟨⟨tree, tree'', ht, ht'', grows.append bears.trans grows'⟩, fun h₀ => h'.stays (h.stays h₀)⟩

/-- The others have gone on. -/
theorem Bears.since (bears : s.Bears E R) (stands : s.Stands w) (between : R w w') :
    s.Ready w' ∧ s.Since E [] w w' := by
  obtain ⟨ready, tree, tree', ht, ht', others⟩ := bears.ready stands between
  refine ⟨ready, ⟨tree, tree', ht, ht', .still others⟩, fun {i a} h => ⟨h.own, tree', ht', ?_⟩⟩
  obtain ⟨tree₁, ht₁, found⟩ := h.found
  rw [ht] at ht₁
  cases ht₁
  exact bears.stays others h.own found

/-- The table has its node. -/
theorem Stands.root (h : s.Stands w) : ∃ a, s.Finds w (.table s.key) a := by
  obtain ⟨tree, ht, plants⟩ := h.planted
  obtain ⟨a, root⟩ := Option.isSome_iff_exists.1 plants.root
  exact ⟨a, rfl, tree, ht, root⟩

/-- Nothing has become of the tree when no node was asked for and the others did nothing. -/
theorem Since.still (h : s.Since Eq [] w w') : w'.trees[s.tree]? = w.trees[s.tree]? := by
  obtain ⟨tree, tree', ht, ht', grows⟩ := h.grows
  cases grows with
  | still same => rw [ht, ht', same]

/-- No node was made when all that were asked for were there. -/
theorem Since.of_found (bears : s.Bears E R) (h : s.Since E parts w w')
    (found : ∀ i ∈ parts, ∃ a, s.Finds w i a) : s.Since E [] w w' := by
  obtain ⟨tree, tree', ht, ht', grows⟩ := h.grows
  refine ⟨⟨tree, tree', ht, ht', .still (grows.others_of_has bears.trans ?_ ?_)⟩, h.stays⟩
  · intro tree₁ tree₂ i mem others has
    obtain ⟨a, ha⟩ := Option.isSome_iff_exists.1 has
    obtain ⟨b, here⟩ := found i mem
    exact Option.isSome_iff_exists.2 ⟨a, bears.stays others here.own ha⟩
  · intro i mem
    obtain ⟨a, -, tree₁, ht₁, ha⟩ := found i mem
    cases ht.symm.trans ht₁
    exact Option.isSome_iff_exists.2 ⟨a, ha⟩

/-! ### What comes of an act -/

/-- What comes of an act that reads the table and asks for the nodes of some parts: a value, of which
something holds, or there is no room for another node. -/
inductive Outcome (s : Stage) (E : Tree → Tree → Prop) (parts : List Identity)
    (Q : α → World μ → Prop) (w : World μ) : Except Panic α → World μ → Prop where
  /-- It comes to a value. -/
  | value {a : α} {w' : World μ} (ready : s.Ready w') (since : s.Since E parts w w') (holds : Q a w') :
    Outcome s E parts Q w (.ok a) w'
  /-- A list of the rows and columns would be too long. -/
  | noList {w' : World μ} (long : ¬s.grid.Fits) (asks : parts ≠ []) :
    Outcome s E parts Q w (.error Room.overflow) w'
  /-- When a part is asked for that has no node the tree takes no more nodes. -/
  | noNode {w' : World μ} {before after : List Identity} {i : Identity}
      (asked : parts = before ++ i :: after) (since : s.Since E before w w')
      (full : w'.Full s.tree) (missing : ∀ a, ¬s.Finds w' i a) :
    Outcome s E parts Q w (.error treeFull) w'

variable {Q Q' : α → World μ → Prop} {result : Except Panic α}

theorem Outcome.mono (h : s.Outcome E parts Q w result w')
    (weaker : ∀ {a w'}, s.Ready w' → s.Since E parts w w' → Q a w' → Q' a w') :
    s.Outcome E parts Q' w result w' := by
  cases h with
  | value ready since holds => exact .value ready since (weaker ready since holds)
  | noList long asks => exact .noList long asks
  | noNode asked since full missing => exact .noNode asked since full missing

/-- What came before counts. -/
theorem Outcome.after (bears : s.Bears E R) (since : s.Since E parts w w')
    (h : s.Outcome E parts' Q w' result w'') : s.Outcome E (parts ++ parts') Q w result w'' := by
  cases h with
  | value ready since' holds => exact .value ready (since.trans bears since') holds
  | noList long asks => exact .noList long (List.append_ne_nil_of_right_ne_nil _ asks)
  | noNode asked since' full missing =>
    subst asked
    exact .noNode (List.append_assoc _ _ _).symm (since.trans bears since') full missing

/-- What asks for no nodes comes to a value. -/
theorem Outcome.of_nil (h : s.Outcome E [] Q w result w') :
    ∃ a, result = .ok a ∧ s.Ready w' ∧ s.Since E [] w w' ∧ Q a w' := by
  cases h with
  | value ready since holds => exact ⟨_, rfl, ready, since, holds⟩
  | noList _ asks => exact absurd rfl asks
  | noNode asked =>
    cases List.append_ne_nil_of_right_ne_nil _ (List.cons_ne_nil _ _) asked.symm

end Stage

/-- An act reads the table and asks for the nodes of some parts, and something holds of its value, if
all its tasks are done and answered. -/
structure Act.Brings (s : Stage) (E : Tree → Tree → Prop) (R : World μ → World μ → Prop)
    (parts : List Identity) (Q : α → World μ → Prop) (act : Act μ α) (w : World μ) : Prop where
  /-- It comes to that. -/
  comes : (act w).ComesTo R (s.Outcome E parts Q w)

namespace Act.Brings

open Stage

variable {s : Stage} {E : Tree → Tree → Prop} {parts parts' : List Identity} {Q Q' : α → World μ → Prop}
  {act : Act μ α}

theorem mono (h : act.Brings s E R parts Q w)
    (weaker : ∀ {a w'}, s.Ready w' → s.Since E parts w w' → Q a w' → Q' a w') :
    act.Brings s E R parts Q' w :=
  ⟨h.comes.mono fun outcome => outcome.mono weaker⟩

/-- An act that is over at once. -/
theorem of_done {a : α} (run : act w = .done (.ok a) w') (ready : s.Ready w')
    (since : s.Since E parts w w') (holds : Q a w') : act.Brings s E R parts Q w := by
  refine ⟨?_⟩
  rw [run]
  exact .value ready since holds

/-- An act that is over has come to its value. -/
theorem of_value {a : α} (h : act.Brings s E R parts Q w) (value : (act w).value? = some a) :
    ∃ w', act w = .done (.ok a) w' ∧ s.Ready w' ∧ Q a w' := by
  obtain ⟨w', run, outcome⟩ := h.comes.of_value value
  cases outcome with
  | value ready _ holds => exact ⟨w', run, ready, holds⟩

/-- Looking at the world changes nothing. -/
theorem get {f : World μ → Act μ α} (h : (f w).Brings s E R parts Q w) :
    (MonadState.get >>= f).Brings s E R parts Q w := ⟨h.comes⟩

/-- A list that is no longer than the rows and columns finds room, or they do not. -/
theorem makeRoom {item : Room.Item} {count : Nat} {rest : Unit → Act μ α}
    (fits : s.grid.Fits → Room.Fits item count) (asks : 0 < count → parts ≠ [])
    (h : Room.Fits item count → (rest ()).Brings s E R parts Q w) :
    (Act.makeRoom item count >>= rest).Brings s E R parts Q w := by
  refine ⟨?_⟩
  rw [bind_apply]
  unfold Act.makeRoom
  split
  · exact (h ‹_›).comes
  · rename_i long
    refine .noList (fun room => long (fits room)) (asks (Nat.pos_of_ne_zero ?_))
    rintro rfl
    exact long (Nat.zero_le _)

variable (bears : s.Bears E R)

include bears

theorem pure {a : α} (ready : s.Ready w) (holds : Q a w) : (pure a : Act μ α).Brings s E R [] Q w :=
  of_done rfl ready (.of_trees bears ready.toStands rfl) holds

/-- One act after another. -/
theorem bind {f : α → Act μ β} {Q' : β → World μ → Prop} (h : act.Brings s E R parts Q w)
    (rest : ∀ {a w'}, s.Ready w' → s.Since E parts w w' → Q a w' →
      (f a).Brings s E R parts' Q' w') :
    (act >>= f).Brings s E R (parts ++ parts') Q' w := by
  refine ⟨h.comes.bind (fun {a w'} outcome => ?_) fun {e w'} outcome => ?_⟩
  · cases outcome with
    | value ready since holds =>
      exact (rest ready since holds).comes.mono fun outcome => outcome.after bears since
  · cases outcome with
    | noList long asks => exact .noList long (List.append_ne_nil_of_left_ne_nil asks _)
    | noNode asked since full missing =>
      subst asked
      exact .noNode (by rw [List.append_assoc, List.cons_append]) since full missing

/-- The first act asks for no nodes, -/
theorem nil_bind {f : α → Act μ β} {Q' : β → World μ → Prop} (h : act.Brings s E R [] Q w)
    (rest : ∀ {a w'}, s.Ready w' → s.Since E [] w w' → Q a w' → (f a).Brings s E R parts Q' w') :
    (act >>= f).Brings s E R parts Q' w :=
  h.bind bears rest

/-- or the second one does not. -/
theorem bind_nil {f : α → Act μ β} {Q' : β → World μ → Prop} (h : act.Brings s E R parts Q w)
    (rest : ∀ {a w'}, s.Ready w' → s.Since E parts w w' → Q a w' → (f a).Brings s E R [] Q' w') :
    (act >>= f).Brings s E R parts Q' w := by
  rw [← List.append_nil parts]
  exact h.bind bears rest

/-- An act that asks for nodes that are all there makes none. -/
theorem of_found (h : act.Brings s E R parts Q w) (fits : s.grid.Fits)
    (found : ∀ i ∈ parts, ∃ a, s.Finds w i a) : act.Brings s E R [] Q w := by
  refine ⟨h.comes.mono fun outcome => ?_⟩
  cases outcome with
  | value ready since holds => exact .value ready (since.of_found bears found) holds
  | noList long => exact absurd fits long
  | @noNode _ before after i asked since _ missing =>
    obtain ⟨a, here⟩ := found i (asked ▸ List.mem_append_right _ List.mem_cons_self)
    exact absurd (since.stays here) (missing a)

/-- An act whose value is put in another form. -/
theorem map {f : α → β} {Q' : β → World μ → Prop} (h : act.Brings s E R parts Q w)
    (holds : ∀ {a w'}, s.Ready w' → s.Since E parts w w' → Q a w' → Q' (f a) w') :
    (f <$> act).Brings s E R parts Q' w := by
  rw [map_eq_pure_bind]
  exact h.bind_nil bears fun ready since value => .pure bears ready (holds ready since value)

/-- An act that goes on as another one does in a world with the same tree. -/
theorem of_eq {act' : Act μ α} (h : act'.Brings s E R parts Q w') (stands : s.Stands w)
    (same : act w = act' w') (trees : w'.trees[s.tree]? = w.trees[s.tree]?) :
    act.Brings s E R parts Q w := by
  refine ⟨?_⟩
  rw [same]
  exact h.comes.mono fun outcome => outcome.after bears (.of_trees bears stands trees)

theorem tell {e : Event} {rest : Unit → Act μ α} (ready : s.Ready w)
    (h : (rest ()).Brings s E R parts Q (w.tell e)) :
    (Act.tell e >>= rest).Brings s E R parts Q w :=
  h.of_eq bears ready.toStands rfl rfl

/-- Acts for the items of a list, one after the other. -/
theorem each {items : List β} {act : β → Act μ α} {parts : β → List Identity}
    (Q : β → α → World μ → Prop) (ready : s.Ready w)
    (stays : ∀ {b a w w' parts}, s.Since E parts w w' → Q b a w → Q b a w')
    (h : ∀ {b w' parts'}, b ∈ items → s.Ready w' → s.Since E parts' w w' →
      (act b).Brings s E R (parts b) (Q b) w') :
    (Act.each items act).Brings s E R (items.flatMap parts)
      (fun as w' => List.Forall₂ (fun b a => Q b a w') items as) w := by
  induction items generalizing w with
  | nil => exact .pure bears ready .nil
  | cons b rest ih =>
    rw [each_cons, List.flatMap_cons]
    refine (h List.mem_cons_self ready (.of_trees bears ready.toStands rfl)).bind bears ?_
    intro a w₁ ready₁ since₁ first
    refine Brings.bind_nil bears (ih ready₁ ?_) ?_
    -- the others may come between the items too, so each is done in some later world
    · intro b w' parts' mem ready' since'
      exact h (List.mem_cons_of_mem _ mem) ready' (since₁.trans bears since')
    · intro as w₂ ready₂ since₂ others
      exact .pure bears ready₂ (.cons (stays since₂ first) others)

end Act.Brings

end TableAccess
