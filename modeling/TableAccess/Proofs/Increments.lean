import TableAccess.Proofs.Attaching
import TableAccess.Proofs.Routes

/-!
# Incremental updates

A full update writes out a table and all below it and then takes out of each list of children those that
were not written out; an update of one node does neither, nor does it begin at a table. As long as the
contents stay that makes no difference: what one says of a node the other says too, and the update of a
row is what the update of the table has in one place. Of a node whose part is not there no update has
anything.

## The model

* `Stage.spanning` — a bridge goes on answering for the tree; `Brings.spanning` — so it does under any act
  that looks at tables.
* `Brings.buildNodeUpdate`, `Brings.nodeUpdateGone`, `Brings.treeUpdateGone` — what updates come to.
* `Bridge.Singles`, `Brings.singles` — an update of one node, as a bridge gives it.
* `Stage.Withheld` — no update is to be had; `Stage.Agrees` — updates agree with a full one.
* `Stage.UpdatesAgree`, `incremental_updates_agree` — the main statement.
-/

namespace TableAccess

variable {μ α : Type} {R : World μ → World μ → Prop} {w w' : World μ} {s : Stage}
  {E : Tree → Tree → Prop} {i : Identity} {a y : Adapter} {k : NodeKey} {bridge : BridgeId}
  {parts : List Identity} {u : Update}

/-! ### Bridges that stay -/

/-- What an act keeps to still holds when it is over, if the others keep to it too. -/
theorem Progress.ComesTo.keeping {I : World μ → Prop} {p : Progress μ α} {w₀ : World μ}
    {post : Except Panic α → World μ → Prop} {kept : World μ → Except Panic α → Prop}
    (h : p.ComesTo R post) (keeps : p.Keeps (.keeping I) kept w₀)
    (others : ∀ {w w' : World μ}, R w w' → I w → I w')
    (accepts : ∀ {w w' : World μ} {c k}, w.Accepts c k w' → I w → I w') :
    p.ComesTo R fun result w => post result w ∧ kept w result ∧ I w := by
  induction p generalizing w₀ with
  | done result w => exact ⟨h, keeps.2, keeps.1.leaves⟩
  | calling c k bound task w next ihTask ih =>
    obtain ⟨⟨w₁, along, handed⟩, does, goesOn⟩ := keeps
    have still : I w := accepts handed along.leaves
    have thread : w.thread = w₀.thread := handed.thread.trans along.thread
    intro s between here
    refine (ihTask s (h s between here) (does s here (others between still))).mono ?_
    rintro answer s' ⟨answered, told, held⟩ later between' back
    exact ih (some answer) later (answered later between' back)
      (told later (back.trans thread) (others between' held))
  | awaiting | leaving | starting => exact h.elim

namespace Stage

/-- The bridge answers for the tree. -/
def spanning (s : Stage) (bridge : BridgeId) : Conduct μ := .keeping fun w => s.Spanned w bridge

theorem Calm.spanned (h : s.Calm E w w') (spans : s.Spanned w bridge) : s.Spanned w' bridge := by
  obtain ⟨m, m', -, goes, -, rfl, rfl⟩ := h.goes
  obtain ⟨br, hb, here⟩ := spans
  obtain ⟨br', hb', same⟩ := goes.keeps_bridge hb
  exact ⟨br', hb', same.trans here⟩

/-- Whatever comes up while tables are looked at leaves bridges alone. -/
theorem spanning_visits (s : Stage) (bridge : BridgeId) :
    Scope.any.Visits (s.spanning bridge : Conduct μ) fun _ => True :=
  Scope.any_visits ⟨fun spans => spans, fun _ _ along => along.leaves⟩
    (fun along _ _ => along.leaves) (fun along _ => along.leaves) fun along _ _ _ _ _ => along.leaves

end Stage

namespace Act.Brings

open Stage

variable {Q : α → World μ → Prop} {act : Act μ α} {P : Panic → Prop} {V : α → Prop}

/-- When an act is over that leaves bridges alone, the bridge still answers for the tree. -/
theorem spanning (h : act.Brings s E (s.Calm E) parts Q w)
    (keeps : act.Keeps (s.spanning bridge) P V) (spans : s.Spanned w bridge) :
    act.Brings s E (s.Calm E) parts (fun a w' => Q a w' ∧ s.Spanned w' bridge) w := by
  have begins : (s.spanning bridge : Conduct μ).Along w w := ⟨rfl, spans⟩
  refine ⟨(h.comes.keeping (keeps.keeps begins).progress Calm.spanned fun handed spans => ?_).mono ?_⟩
  · rw [handed.rest]
    exact spans
  · rintro result w' ⟨outcome, -, spans'⟩
    cases outcome with
    | value ready since holds => exact .value ready since ⟨holds, spans'⟩
    | noList long asks => exact .noList long asks
    | noNode asked since full missing => exact .noNode asked since full missing

/-! ### Updates of single nodes -/

variable (bears : s.Bears E R)

include bears

/-- A node that is there is written out by itself as the contents say. -/
theorem buildNodeUpdate {focus : Option NodeKey} (ready : s.Ready w) (found : s.Finds w i a)
    (there : s.grid.Includes i) : (TableAccess.buildNodeUpdate s.tree focus a.key).Brings s E R
      ((s.grid.branches i).flatMap Grid.asked) (fun result w' => ∃ n,
        result = some ⟨[(a.key.toRaw, n)], none, (focus.getD a.key).toRaw⟩ ∧ s.Writes w' i n) w := by
  obtain ⟨tree, ht, -, stored, -⟩ := found.stored ready.toStands
  unfold TableAccess.buildNodeUpdate
  refine getTree ht ?_
  simp only [stored]
  refine (build bears ready found there).bind_nil bears ?_
  rintro _ w₁ ready₁ - ⟨n, rfl, writes⟩
  exact pure bears ready₁ ⟨n, rfl, writes⟩

/-- There is no update by itself of a node whose part is not there, -/
theorem nodeUpdateGone {focus : Option NodeKey} (ready : s.Ready w) (found : s.Finds w i a)
    (gone : ¬s.grid.Includes i) : (TableAccess.buildNodeUpdate s.tree focus a.key).Brings s E R []
      (fun result _ => result = none) w := by
  obtain ⟨tree, ht, -, stored, -⟩ := found.stored ready.toStands
  unfold TableAccess.buildNodeUpdate
  refine getTree ht ?_
  simp only [stored]
  refine (buildGone bears ready found gone).nil_bind bears ?_
  rintro _ w₁ ready₁ - rfl
  exact pure bears ready₁ rfl

/-- nor does a visit of it come to anything, -/
theorem visitGone (depth : Nat) (ready : s.Ready w) (found : s.Finds w i a)
    (gone : ¬s.grid.Includes i) :
    (TableAccess.visit s.tree depth a.key).Brings s E R [] (fun ns _ => ns = []) w := by
  cases depth with
  | zero => exact pure bears ready rfl
  | succ depth =>
    obtain ⟨tree, ht, -, stored, -⟩ := found.stored ready.toStands
    unfold TableAccess.visit
    refine getTree ht ?_
    simp only [stored]
    refine (buildGone bears ready found gone).nil_bind bears ?_
    rintro _ w₁ ready₁ - rfl
    exact pure bears ready₁ rfl

/-- so there is no update of it and what is below it either. -/
theorem treeUpdateGone (ready : s.Ready w) (found : s.Finds w i a) (gone : ¬s.grid.Includes i) :
    (TableAccess.buildTreeUpdate s.tree a.key).Brings s E R [] (fun result _ => result = none) w := by
  have told := ready.tell (.span .treeUpdate)
  refine tell bears ready ?_
  refine (visitGone bears Adapter.levels told (found.congr rfl) gone).nil_bind bears ?_
  rintro _ w₁ ready₁ - rfl
  exact tell bears ready₁ (pure bears (ready₁.tell _) rfl)

end Act.Brings

/-! ### Through a bridge -/

namespace Bridge

variable {br : Bridge}

theorem treeUpdate_run (hb : w.bridges[bridge]? = some br) (k : NodeKey) :
    treeUpdate bridge k w = buildTreeUpdate br.tree k w := by
  unfold treeUpdate
  rw [Act.bind_apply, getBridge_run hb]
  rfl

/-- The update of one node has the focus on the root, if there is one, and else on the node. -/
def focused (bridge : BridgeId) (k : NodeKey) : Option Update → Act μ (Option Update)
  | none => pure none
  | some update => do return some { update with focus := ((← root? bridge).getD k).toRaw }

theorem nodeUpdate_run (hb : w.bridges[bridge]? = some br) (k : NodeKey) :
    nodeUpdate bridge k w = (buildNodeUpdate br.tree none k >>= focused bridge k) w := by
  unfold nodeUpdate
  rw [Act.bind_apply, getBridge_run hb]
  refine congrArg (fun f => (buildNodeUpdate br.tree none k >>= f) w) (funext fun result => ?_)
  cases result <;> rfl

theorem focused_run {root : Option NodeKey} (run : root? bridge w = .done (.ok root) w) (update : Update) :
    focused bridge k (some update) w =
      .done (.ok (some { update with focus := (root.map NodeKey.toRaw).getD k.toRaw })) w := by
  show (root? bridge >>= fun root => pure (some { update with focus := (root.getD k).toRaw }) :
    Act μ _) w = _
  rw [Act.bind_apply, run]
  cases root <;> rfl

/-- The update of a node by itself, as a bridge gives it: it has exactly this node, and the focus is on
the root that the bridge has, or else on the node. -/
def Singles (bridge : BridgeId) (n : NodeId × TreeNode) (result : Option Update) (w : World μ) : Prop :=
  ∃ root, root? bridge w = .done (.ok root) w ∧
    result = some ⟨[n], none, (root.map NodeKey.toRaw).getD n.1⟩

end Bridge

namespace Act.Brings

open Stage

/-- A bridge over the tree gives the updates of the tree. -/
theorem treeUpdate {Q : Option Update → World μ → Prop}
    (h : (TableAccess.buildTreeUpdate s.tree k).Brings s s.Keeps (s.Calm s.Keeps) parts Q w)
    (stands : s.Stands w) (spans : s.Spanned w bridge) :
    (Bridge.treeUpdate bridge k).Brings s s.Keeps (s.Calm s.Keeps) parts
      (fun result w' => Q result w' ∧ s.Spanned w' bridge) w := by
  have keeps := (s.spanning_visits (μ := μ) bridge).treeUpdate (t := s.tree) (k := k) trivial
  have kept := h.spanning keeps spans
  obtain ⟨br, hb, here⟩ := spans
  exact kept.of_eq (Keeps.bears s) stands (here ▸ Bridge.treeUpdate_run hb k) rfl

/-- So it does with the updates of one node, -/
theorem nodeUpdate {Q : Option Update → World μ → Prop}
    (h : (TableAccess.buildNodeUpdate s.tree none k >>= Bridge.focused bridge k).Brings s s.Keeps
      (s.Calm s.Keeps) parts Q w) (stands : s.Stands w) (spans : s.Spanned w bridge) :
    (Bridge.nodeUpdate bridge k).Brings s s.Keeps (s.Calm s.Keeps) parts Q w := by
  obtain ⟨br, hb, here⟩ := spans
  exact h.of_eq (Keeps.bears s) stands (here ▸ Bridge.nodeUpdate_run hb k) rfl

/-- and gives that of a node that is there. -/
theorem singles (ready : s.Ready w) (found : s.Finds w i a) (there : s.grid.Includes i)
    (spans : s.Spanned w bridge) : (Bridge.nodeUpdate bridge a.key).Brings s s.Keeps (s.Calm s.Keeps)
      ((s.grid.branches i).flatMap Grid.asked) (fun result w' => ∃ n,
        Bridge.Singles bridge (a.key.toRaw, n) result w' ∧ s.Writes w' i n) w := by
  have bears := Keeps.bears (μ := μ) s
  have keeps := (s.spanning_visits (μ := μ) bridge).nodeUpdate (t := s.tree) (k := a.key) none trivial
  have kept := (buildNodeUpdate bears ready found there).spanning keeps spans
  refine nodeUpdate ?_ ready.toStands spans
  refine kept.bind_nil bears ?_
  rintro result w₁ ready₁ - ⟨⟨n, rfl, writes⟩, spans₁⟩
  obtain ⟨br₁, hb₁, here₁⟩ := spans₁
  obtain ⟨tree₁, ht₁, -⟩ := ready₁.planted
  have root := Bridge.root?_run hb₁ (here₁ ▸ ht₁)
  exact of_done (Bridge.focused_run root _) ready₁ (.of_trees bears ready₁.toStands rfl)
    ⟨n, ⟨_, root, rfl⟩, writes⟩

end Act.Brings

/-! ### Agreement -/

namespace Stage

/-- No update of a node is to be had. -/
structure Withheld (s : Stage) (bridge : BridgeId) (k : NodeKey) (w : World μ) : Prop where
  /-- None of the node by itself -/
  node : (Bridge.nodeUpdate bridge k).Brings s s.Keeps (s.Calm s.Keeps) []
    (fun result _ => result = none) w
  /-- and none with what is below it. -/
  tree : (Bridge.treeUpdate bridge k).Brings s s.Keeps (s.Calm s.Keeps) []
    (fun result _ => result = none) w

/-- Updates agree with a full update of the table. -/
structure Agrees (s : Stage) (u : Update) (bridge : BridgeId) (w : World μ) : Prop where
  /-- For each of its nodes there is an update of it by itself, which has the same node. -/
  node : ∀ n ∈ u.nodes, (Bridge.nodeUpdate bridge (.ofRaw n.1)).Brings s s.Keeps (s.Calm s.Keeps) []
    (Bridge.Singles bridge n) w
  /-- For each row there is an update, which has the nodes that the full one has in the place of the
  row: the row's, and behind it those of its cells. -/
  row : ∀ {row : Nat}, row < s.grid.rows.length → ∃ y, s.Finds w (.row s.key row) y ∧
    (s.grid.block row u.nodes).map Prod.fst = (s.grid.under (.row s.key row)).map (s.nodeId w) ∧
    (Bridge.treeUpdate bridge y.key).Brings s s.Keeps (s.Calm s.Keeps) [] (fun result _ =>
      result = some ⟨s.grid.block row u.nodes, some y.key.toRaw, y.key.toRaw⟩) w
  /-- Of a node whose part is not there there is no update, and the full one does not have it. -/
  gone : ∀ {a : Adapter}, s.Stores w a → ¬s.grid.Includes a.identity →
    s.Withheld bridge a.key w ∧ a.key.toRaw ∉ u.nodes.map Prod.fst

/-- There is no update of a node whose part is not there. -/
theorem Ready.withheld (ready : s.Ready w) (stored : s.Stores w a)
    (gone : ¬s.grid.Includes a.identity) (spans : s.Spanned w bridge) :
    s.Withheld bridge a.key w := by
  have bears := Keeps.bears (μ := μ) s
  have found := stored.finds ready.toStands
  constructor
  · refine Act.Brings.nodeUpdate ?_ ready.toStands spans
    refine (Act.Brings.nodeUpdateGone bears ready found gone).nil_bind bears ?_
    rintro result w₁ ready₁ - rfl
    exact .pure bears ready₁ rfl
  · exact (Act.Brings.treeUpdateGone bears ready found gone).treeUpdate ready.toStands spans |>.mono
      fun _ _ none => none.1

namespace Serializes

/-- What the update of the table says stays true. -/
theorem later (h : s.Serializes w u) (later : s.Later w w') : s.Serializes w' u where
  fits := h.fits
  whole i own there := (h.whole i own there).imp fun _ found => later.stays found
  update := by
    rw [h.update]
    refine Grid.subtree_congr (i := .table s.key) fun j hj => ?_
    obtain ⟨own, there⟩ := Grid.mem_serial.1 hj
    obtain ⟨b, found⟩ := h.whole j own there
    rw [found.nodeId, (later.stays found).nodeId]

/-- Each part that is there is written out as the contents say. -/
theorem writes (h : s.Serializes w u) (own : i.tableKey = s.key) :
    s.Writes w i (s.grid.written (s.nodeId w) i) where
  there _ hj := (Grid.includes_of_branch hj).elim fun there same => h.whole _ (same.trans own) there
  written := rfl
  fits _ := h.fits

/-- It is a node of the update, under the id of its node. -/
theorem mem (h : s.Serializes w u) (found : s.Finds w i a) (there : s.grid.Includes i) :
    (a.key.toRaw, s.grid.written (s.nodeId w) i) ∈ u.nodes := by
  rw [h.update, ← found.nodeId]
  exact List.mem_map.2 ⟨i, Grid.mem_serial.2 ⟨found.own, there⟩, rfl⟩

/-- There are no others. -/
theorem of_mem (h : s.Serializes w u) {n : NodeId × TreeNode} (hn : n ∈ u.nodes) :
    ∃ i b, s.grid.Includes i ∧ s.Finds w i b ∧ n = (b.key.toRaw, s.grid.written (s.nodeId w) i) := by
  rw [h.update] at hn
  obtain ⟨i, hi, rfl⟩ := List.mem_map.1 hn
  obtain ⟨own, there⟩ := Grid.mem_serial.1 hi
  obtain ⟨b, found⟩ := h.whole i own there
  exact ⟨i, b, there, found, by rw [found.nodeId]⟩

/-- The update of a row is what it has in the place of the row. -/
theorem block (h : s.Serializes w u) {row : Nat} (found : s.Finds w (.row s.key row) y)
    (there : row < s.grid.rows.length) : s.grid.subtree (s.nodeId w) (.row s.key row) =
      ⟨s.grid.block row u.nodes, some y.key.toRaw, y.key.toRaw⟩ := by
  rw [h.update, Grid.block_update there, ← found.nodeId]
  rfl

/-- All other updates agree with it. -/
theorem agrees (h : s.Serializes w u) (ready : s.Ready w) (spans : s.Spanned w bridge) :
    s.Agrees u bridge w := by
  have bears := Keeps.bears (μ := μ) s
  refine ⟨fun n hn => ?_, fun {row} there => ?_, fun {a} stored gone =>
    ⟨ready.withheld stored gone spans, fun mem => ?_⟩⟩
  · obtain ⟨i, b, there, found, rfl⟩ := h.of_mem hn
    -- all that is asked for is there, so the branches keep their ids
    have single := (Act.Brings.singles ready found there spans).of_found bears h.fits fun j hj =>
      h.whole.sown 1 there found.own (List.mem_append_left _ hj)
    rw [NodeKey.ofRaw_toRaw]
    refine single.mono ?_
    rintro result w' - since ⟨n, single, writes⟩
    exact ((h.writes found.own).since since).unique writes ▸ single
  · obtain ⟨y, found⟩ := h.whole (.row s.key row) rfl there
    refine ⟨y, found, ?_, ?_⟩
    · rw [h.update, Grid.block_update there, Grid.subtree, List.map_map]
      rfl
    · have all := (Act.Brings.subtree bears ready found there).of_found bears h.fits fun j hj =>
        h.whole.sown Adapter.levels (i := .row s.key row) there found.own hj
      refine (all.treeUpdate ready.toStands spans).mono ?_
      rintro result w' ready' since ⟨⟨rfl, -⟩, -⟩
      have later : s.Later w w' := ⟨ready', _, since⟩
      rw [(h.later later).block (later.stays found) there]
  · obtain ⟨n, hn, same⟩ := List.mem_map.1 mem
    obtain ⟨i, b, there, found, rfl⟩ := h.of_mem hn
    have found' := stored.finds ready.toStands
    have ids : s.nodeId w i = s.nodeId w a.identity := by
      rw [found.nodeId, found'.nodeId]
      exact same
    exact gone (found.eq_of_nodeId found' ready.toStands ids ▸ there)

end Serializes

/-- Updates of a table, of its parts and of single nodes agree, in whatever order they are asked for.
Between one and the next the others may do what they like that leaves the contents and the nodes of the
table. -/
structure UpdatesAgree (s : Stage) (bridge : BridgeId) (w : World μ) : Prop where
  /-- Whoever has asked for the update of the table finds that later ones agree with it. -/
  full : (Bridge.treeUpdate bridge s.key).Brings s s.Keeps (s.Calm s.Keeps)
    (s.grid.sown Adapter.levels (.table s.key)) (fun result w₁ => ∃ u, result = some u ∧
      s.Spanned w₁ bridge ∧ ∀ w₂ bridge', s.Later w₁ w₂ → s.Spanned w₂ bridge' →
        s.Agrees u bridge' w₂) w
  /-- Whoever has asked for the update of one node, whose part is there, finds this node in later ones of
  the table. -/
  node : ∀ {a : Adapter}, s.Stores w a → s.grid.Includes a.identity →
    (Bridge.nodeUpdate bridge a.key).Brings s s.Keeps (s.Calm s.Keeps)
      ((s.grid.branches a.identity).flatMap Grid.asked) (fun result w₁ => ∃ n,
        Bridge.Singles bridge (a.key.toRaw, n) result w₁ ∧ ∀ w₂ bridge', s.Later w₁ w₂ →
          s.Spanned w₂ bridge' → (Bridge.treeUpdate bridge' s.key).Brings s s.Keeps (s.Calm s.Keeps)
            (s.grid.sown Adapter.levels (.table s.key))
            (fun full _ => ∃ u, full = some u ∧ (a.key.toRaw, n) ∈ u.nodes) w₂) w
  /-- Whoever has asked for the update of a row that is there finds its nodes in the place of the row. -/
  row : ∀ {y : Adapter} {row : Nat}, s.Stores w y → y.identity = .row s.key row →
    row < s.grid.rows.length → (Bridge.treeUpdate bridge y.key).Brings s s.Keeps (s.Calm s.Keeps)
      (s.grid.sown Adapter.levels (.row s.key row)) (fun result w₁ => ∃ nodes,
        result = some ⟨nodes, some y.key.toRaw, y.key.toRaw⟩ ∧ ∀ w₂ bridge', s.Later w₁ w₂ →
          s.Spanned w₂ bridge' → (Bridge.treeUpdate bridge' s.key).Brings s s.Keeps (s.Calm s.Keeps)
            (s.grid.sown Adapter.levels (.table s.key))
            (fun full _ => ∃ u, full = some u ∧ s.grid.block row u.nodes = nodes) w₂) w
  /-- There is no update of a node whose part is not there. -/
  gone : ∀ {a : Adapter}, s.Stores w a → ¬s.grid.Includes a.identity → s.Withheld bridge a.key w

/-- A bridge over the tree gives the full update of the table. -/
theorem Ready.fullUpdate (ready : s.Ready w) (spans : s.Spanned w bridge) :
    (Bridge.treeUpdate bridge s.key).Brings s s.Keeps (s.Calm s.Keeps)
      (s.grid.sown Adapter.levels (.table s.key)) (fun result w₁ => ∃ u, result = some u ∧
        s.Serializes w₁ u ∧ s.Spanned w₁ bridge) w := by
  obtain ⟨x, root⟩ := ready.root
  have all := Act.Brings.buildTreeUpdate (Keeps.bears (μ := μ) s) ready root
  refine (all.treeUpdate ready.toStands spans).mono ?_
  rintro result w₁ - - ⟨⟨u, rfl, serializes⟩, spans₁⟩
  exact ⟨u, rfl, serializes, spans₁⟩

end Stage

/-- **Incremental and full updates agree.** For a table whose contents stay and whose context answers, the
update of a node by itself has exactly the node that the update of the table has for it, with all that
it says, and the focus on the root of the bridge if there is one; the update of a row is the contiguous
part of it that has the row and its cells; and there is no update of a node whose part is not there, nor
does the update of the table have it. It does not matter which nodes there were before. -/
theorem incremental_updates_agree {m : Moment μ} (h : m.Lived) (set : s.Set m)
    (spans : s.Spanned m.world bridge) : s.UpdatesAgree bridge m.world := by
  have bears := Stage.Keeps.bears (μ := μ) s
  have ready := set.ready h
  refine ⟨?_, fun {a} stored there => ?_, fun {y row} stored same there => ?_,
    fun stored gone => ready.withheld stored gone spans⟩
  · refine (ready.fullUpdate spans).mono ?_
    rintro result w₁ - - ⟨u, rfl, serializes, spans₁⟩
    exact ⟨u, rfl, spans₁, fun w₂ bridge' later spans₂ =>
      (serializes.later later).agrees later.1 spans₂⟩
  · have found := stored.finds ready.toStands
    refine (Act.Brings.singles ready found there spans).mono ?_
    rintro result w₁ ready₁ since₁ ⟨n, single, writes⟩
    refine ⟨n, single, fun w₂ bridge' later spans₂ => (later.1.fullUpdate spans₂).mono ?_⟩
    rintro full w₃ ready₃ since₃ ⟨u, rfl, serializes, -⟩
    have until₃ : s.Later w₁ w₃ := later.trans ⟨ready₃, _, since₃⟩
    rw [(writes.later until₃).unique (serializes.writes found.own)]
    exact ⟨u, rfl, serializes.mem (until₃.stays (since₁.stays found)) there⟩
  · have found := same ▸ stored.finds ready.toStands
    refine ((Act.Brings.subtree bears ready found there).treeUpdate ready.toStands spans).mono ?_
    rintro result w₁ ready₁ since₁ ⟨⟨rfl, below, -⟩, -⟩
    have id : s.nodeId w₁ (.row s.key row) = y.key.toRaw := (since₁.stays found).nodeId
    refine ⟨_, by rw [← id]; rfl, fun w₂ bridge' later spans₂ => ?_⟩
    refine (later.1.fullUpdate spans₂).mono ?_
    rintro full w₃ ready₃ since₃ ⟨u, rfl, serializes, -⟩
    have until₃ : s.Later w₁ w₃ := later.trans ⟨ready₃, _, since₃⟩
    refine ⟨u, rfl, ?_⟩
    -- what is below the row had its nodes, and they have stayed
    have ids : ∀ j ∈ s.grid.under (.row s.key row), s.nodeId w₃ j = s.nodeId w₁ j := fun j hj => by
      obtain ⟨b, here⟩ := below j hj
      rw [here.nodeId, (until₃.stays here).nodeId]
    rw [serializes.update, Grid.block_update there, Grid.subtree_congr ids]
    rfl

/-- So it is for a table with two rows and two columns, of which only the first row had a node. The
second row and its cells stand together in the update, before the columns. -/
theorem incremental_updates_agree_row :
    ∃ (m : Moment Unit) (s : Stage) (u : Update) (w : World Unit), m.Lived ∧ s.Set m ∧
      s.Spanned m.world 0 ∧ Bridge.treeUpdate 0 s.key m.world = .done (.ok (some u)) w ∧
      u.nodes.map Prod.fst = [0x100000001, 0x100000002, 0x100000006, 0x100000007, 0x100000003,
        0x100000008, 0x100000009, 0x100000004, 0x100000005] ∧
      (s.grid.block 1 u.nodes).map Prod.fst = [0x100000003, 0x100000008, 0x100000009] ∧
      s.Agrees u 0 w := by
  let grid : Grid := ⟨"", ["h", "k"], [["a", "b"], ["c", "d"]]⟩
  have rectangular : grid.Rectangular := by simp [grid, Grid.Rectangular]
  obtain ⟨m, lived, set, e⟩ := Stage.set_row rectangular
  have spans : (⟨0, Arena.keyAt 0 1, 0, 0, 0, grid⟩ : Stage).Spanned m.world 0 :=
    ⟨_, by rw [e]; rfl, rfl⟩
  have ids : ((Bridge.treeUpdate 0 (Arena.keyAt 0 1) m.world).value?.map fun result =>
      result.map fun u => u.nodes.map Prod.fst) =
        some (some [0x100000001, 0x100000002, 0x100000006, 0x100000007, 0x100000003,
          0x100000008, 0x100000009, 0x100000004, 0x100000005]) := by
    rw [e]
    decide +kernel
  obtain ⟨result, value, ids⟩ := Option.map_eq_some_iff.1 ids
  obtain ⟨w, run, ready, u, rfl, spans', agrees⟩ :=
    (incremental_updates_agree lived set spans).full.of_value value
  have ids : u.nodes.map Prod.fst = _ := Option.some.inj ids
  refine ⟨m, _, u, w, lived, set, spans, run, ids, ?_, agrees w 0 ready.later spans'⟩
  rw [Grid.block, List.map_take, List.map_drop, ids]
  rfl

end TableAccess
