import TableAccess.Proofs.Calm
import TableAccess.Proofs.Gathering
import TableAccess.Proofs.Latches

/-!
# Trees of many tables

A tree may have many tables, some of them dropped or disposed of. As long as all of them stay as they
are, and their context responds, whatever is read through their peers has one answer, whenever it is
read: whether a peer was latched on the way makes no difference, since it is latched only when the table
is gone. So an act that reads tables and finds or makes nodes comes to one result and leaves one tree,
both known from the tree it began with.

## The model

* `Gallery` — the editable tables of a tree; `Gallery.outcome` — what is read of one.
* `Gallery.Stands`, `Gallery.Ready` — they are in their places; and their context responds.
* `Gallery.Calm` — what the others may do; `Stands.calm` — the tables stay in their places.
* `Act.Runs` — an act comes to a result and leaves a tree; `Runs.bind`, `Runs.query`, … — one rule for
  each way to put acts together, and for each thing an act can do.
* `Act.Constant` — an act that reads, and comes to the same whatever the nodes are.
* `Gallery.Set`, `Set.ready` — the tables of a tree at some moment; `World.gallery` — what they are then.
-/

namespace TableAccess

variable {μ α β : Type} {w w' : World μ} {tree tree' tree'' : Tree} {p : PeerId} {a : Adapter}

/-! ### The tables of a tree -/

/-- The editable tables of a tree, some of which may be gone. -/
structure Gallery where
  /-- The tree. -/
  tree : TreeId
  /-- The context that reads the tables. -/
  context : ContextId
  /-- A table has this key. -/
  Keys : NodeKey → Prop
  /-- A node of one of them reads through this peer. -/
  Peers : PeerId → Prop
  /-- The table that a peer refers to. -/
  table : PeerId → TableId
  /-- The table itself, unless it was dropped. -/
  shown : PeerId → Option GridTable
  /-- It is bound to nothing but the context. -/
  bound : ∀ {p : PeerId} {g : GridTable} {c : ContextId}, shown p = some g → g.owner = some c →
    c = context

namespace Gallery

/-- The table of a peer was dropped or disposed of. -/
def Gone (x : Gallery) (p : PeerId) : Prop := ∀ g, x.shown p = some g → g.disposed = true

/-- What is read of the table of a peer. -/
def outcome (x : Gallery) (p : PeerId) (read : Inquiry (Except Unavailable α)) : Except Unavailable α :=
  match x.shown p with
  | none => .error .stalePeer
  | some g =>
    if g.disposed then .error .stalePeer else Peer.flatten (ofWork ((read.eval g.answer).map some))

/-- A node of one of the tables. -/
structure Node (x : Gallery) (a : Adapter) : Prop where
  /-- It was made in the tree. -/
  here : a.tree = x.tree
  /-- Its table is one of them. -/
  table : x.Keys a.identity.tableKey
  /-- The node of the table itself has its key. -/
  own : a.identity.role = .table → a.key = a.identity.tableKey
  /-- It reads through a peer of theirs. -/
  peer : x.Peers a.peer

/-- Keys and identities of a tree agree, and nodes that are said to be of the tables are. There may be others
that are left from tables that were taken out. -/
structure Holds (x : Gallery) (tree : Tree) : Prop where
  /-- Keys and identities agree. -/
  indexed : tree.Indexed
  /-- The nodes of the tables. -/
  nodes : ∀ {k : NodeKey} {a : Adapter}, tree.get? k = some a → x.Keys a.identity.tableKey → x.Node a

/-- The tables are in their places, and the tree is as it is said. -/
structure Stands (x : Gallery) (tree : Tree) (w : World μ) : Prop where
  /-- The tree. -/
  planted : w.trees[x.tree]? = some tree
  /-- Its peers refer to the tables, and are latched only when these are gone. -/
  peers : ∀ {p : PeerId}, x.Peers p → ∃ latched,
    w.peers[p]? = some ⟨x.table p, x.context, latched⟩ ∧ (latched = true → x.Gone p)
  /-- The tables are as they are said. -/
  tables : ∀ {p : PeerId}, x.Peers p → w.table? (x.table p) = (x.shown p).map .grid

/-- The tables are in their places, and their context responds. -/
structure Ready (x : Gallery) (tree : Tree) (w : World μ) : Prop extends x.Stands tree w where
  /-- The context responds. -/
  responds : w.Responds x.context

/-- From one world to a later one the others did what they liked, but left the tables and the tree as
they are, and the context responds. -/
structure Calm (x : Gallery) (w w' : World μ) : Prop where
  /-- What they did they could do. -/
  goes : ∃ m m' : Moment μ, m.Lived ∧ m.Goes m' ∧ m.world = w ∧ m'.world = w'
  /-- The tables are as they were. -/
  tables : ∀ {p : PeerId}, x.Peers p → w'.table? (x.table p) = w.table? (x.table p)
  /-- So is the tree. -/
  tree : w'.trees[x.tree]? = w.trees[x.tree]?
  /-- The context responds. -/
  responds : w'.Responds x.context

variable {x : Gallery}

/-- A peer that was latched at some moment has lost its table. -/
theorem gone_of_lived {m : Moment μ} (h : m.Lived) {latched : Bool}
    (hp : m.world.peers[p]? = some ⟨x.table p, x.context, latched⟩)
    (table : m.world.table? (x.table p) = (x.shown p).map .grid) (was : latched = true) : x.Gone p := by
  intro g shown
  by_contra live
  rw [shown] at table
  have valid := h.valid_of_live hp table (Bool.eq_false_iff.2 live)
  rw [was] at valid
  cases valid

namespace Stands

theorem congr (h : x.Stands tree w) (peers : w'.peers = w.peers) (tables : w'.tables = w.tables)
    (trees : w'.trees = w.trees) : x.Stands tree w' := by
  refine ⟨trees ▸ h.planted, fun mine => peers ▸ h.peers mine, fun mine => ?_⟩
  rw [World.table?, tables]
  exact h.tables mine

/-- The others leave the tables in their places. -/
theorem calm (h : x.Stands tree w) (calm : x.Calm w w') : x.Ready tree w' := by
  obtain ⟨m, m', lived, goes, rfl, rfl⟩ := calm.goes
  refine ⟨⟨calm.tree.trans h.planted, fun {p} mine => ?_, fun mine =>
    (calm.tables mine).trans (h.tables mine)⟩, calm.responds⟩
  obtain ⟨before, hp, -⟩ := h.peers mine
  obtain ⟨after, hp', -⟩ := goes.keeps_peer hp
  exact ⟨after, hp', gone_of_lived (lived.goes goes) hp' ((calm.tables mine).trans (h.tables mine))⟩

/-- A table is read on the thread of the context: it was dropped, or it is an editable one that this
thread may touch. -/
theorem consults (h : x.Stands tree w) (mine : x.Peers p) (here : w.thread = .toolkit x.context)
    (read : Inquiry (Except Unavailable α)) : ∃ found,
      consult (x.table p) (Reading.ofLive read) w = .done found w ∧
        Peer.flatten (ofWork found) = x.outcome p read := by
  have table := h.tables mine
  unfold outcome
  cases shown : x.shown p with
  | none =>
    rw [shown] at table
    refine ⟨.ok none, ?_, rfl⟩
    unfold consult
    rw [Act.bind_apply, Act.get_apply]
    simp only [Progress.bind, table, Option.map_none]
    rfl
  | some g =>
    rw [shown] at table
    have opens : g.checkThread w.checksOn w.thread = .ok () := by
      unfold GridTable.checkThread
      cases owner : g.owner with
      | none => rfl
      | some c =>
        rw [x.bound shown owner, here]
        exact Affinity.check_eq_ok_iff.2 fun _ => rfl
    cases disposed : g.disposed with
    | false => exact ⟨_, consult_live table opens disposed read, by simp [disposed]⟩
    | true =>
      refine ⟨.ok (some (.error .stalePeer)), ?_, by simp [disposed, ofWork, Peer.flatten]⟩
      rw [consult_grid table, GridTable.run_eq opens]
      show Progress.done ((Inquiry.eval g.answer (if g.disposed = true then _ else _)).map some) w = _
      rw [if_pos disposed]
      rfl

/-- A peer whose table is gone is latched. -/
theorem latch (h : x.Stands tree w) (gone : x.Gone p) (log : List (Thread × Event)) :
    x.Stands tree { w with peers := Peer.latch w.peers p, log := log } := by
  refine ⟨h.planted, fun {q} yours => ?_, h.tables⟩
  obtain ⟨latched, hq, had⟩ := h.peers yours
  have there : (Peer.latch w.peers p)[q]? = if p = q then
      some ⟨x.table q, x.context, true⟩ else some ⟨x.table q, x.context, latched⟩ := by
    simp only [Peer.latch, List.getElem?_modify, hq]
    split <;> rfl
  by_cases same : p = q
  · subst same
    exact ⟨true, there.trans (if_pos rfl), fun _ => gone⟩
  · exact ⟨latched, there.trans (if_neg same), had⟩

end Stands

theorem Ready.congr (h : x.Ready tree w) (peers : w'.peers = w.peers) (tables : w'.tables = w.tables)
    (trees : w'.trees = w.trees) (contexts : w'.contexts = w.contexts) (tickets : w'.tickets = w.tickets)
    (thread : w'.thread = w.thread) (clock : w'.clock = w.clock) : x.Ready tree w' := by
  refine ⟨h.toStands.congr peers tables trees, ?_⟩
  unfold World.Responds
  rw [contexts, tickets, thread, clock]
  exact h.responds

theorem Ready.tell (h : x.Ready tree w) (e : Event) : x.Ready tree (w.tell e) :=
  h.congr rfl rfl rfl rfl rfl rfl rfl

/-- What is read of a table that is gone, and what an honest reading never says of one that is there. -/
theorem outcome_eq_stale_iff (x : Gallery) {read : Inquiry (Except Unavailable α)} (honest : Reading.Honest read) :
    x.outcome p read = .error .stalePeer ↔ x.Gone p := by
  unfold outcome Gone
  cases shown : x.shown p with
  | none => simp
  | some g =>
    by_cases disposed : g.disposed = true
    · simp [disposed]
    · simp only [disposed, Bool.false_eq_true, if_false, Option.some.injEq]
      refine ⟨fun stale => ?_, fun gone => absurd (gone g rfl) disposed⟩
      cases answered : read.eval g.answer with
      | ok value =>
        rw [answered] at stale
        exact absurd stale (honest.eval answered)
      | error panic =>
        rw [answered] at stale
        cases stale

end Gallery

/-! ### Acts that come to one result -/

/-- An act that begins when the tree is so comes to a result and leaves the tree so, as long as its tasks
are done and answered and the others stay calm. -/
structure Act.Runs (x : Gallery) (act : Act μ α) (tree : Tree) (result : Except Panic α)
    (tree' : Tree) : Prop where
  /-- It comes to that. -/
  comes : ∀ {w : World μ}, x.Ready tree w →
    (act w).ComesTo x.Calm fun r w' => r = result ∧ x.Ready tree' w'

/-- An act reads tables at most, and has one value whatever the nodes are. -/
def Act.Constant (x : Gallery) (act : Act μ α) : Prop :=
  ∃ value, ∀ tree, act.Runs x tree (.ok value) tree

namespace Act.Runs

variable {x : Gallery} {act : Act μ α} {result : Except Panic α} {value : α} {panic : Panic}

/-- An act that is over at once. -/
theorem of_done (run : ∀ {w : World μ}, x.Ready tree w → ∃ w', act w = .done result w' ∧ x.Ready tree' w') :
    act.Runs x tree result tree' := by
  refine ⟨fun {w} ready => ?_⟩
  obtain ⟨w', done, ready'⟩ := run ready
  rw [done]
  exact ⟨rfl, ready'⟩

theorem pure (value : α) : (pure value : Act μ α).Runs x tree (.ok value) tree :=
  of_done fun ready => ⟨_, rfl, ready⟩

theorem throw (panic : Panic) : (throw panic : Act μ α).Runs x tree (.error panic) tree :=
  of_done fun ready => ⟨_, rfl, ready⟩

theorem tell (e : Event) : (Act.tell e : Act μ Unit).Runs x tree (.ok ()) tree :=
  of_done fun ready => ⟨_, rfl, ready.tell e⟩

/-- One act after another. -/
theorem bind {f : α → Act μ β} {result : Except Panic β} (first : act.Runs x tree (.ok value) tree')
    (rest : (f value).Runs x tree' result tree'') : (act >>= f).Runs x tree result tree'' := by
  refine ⟨fun ready => (first.comes ready).bind ?_ ?_⟩
  · rintro a w' ⟨same, ready'⟩
    cases same
    exact rest.comes ready'
  · rintro e w' ⟨same, -⟩
    cases same

/-- The first one panics. -/
theorem panics {f : α → Act μ β} (first : act.Runs x tree (.error panic) tree') :
    (act >>= f).Runs x tree (.error panic) tree' := by
  refine ⟨fun ready => (first.comes ready).bind ?_ ?_⟩
  · rintro a w' ⟨same, -⟩
    cases same
  · rintro e w' ⟨same, ready'⟩
    cases same
    exact ⟨rfl, ready'⟩

theorem map (f : α → β) (first : act.Runs x tree (.ok value) tree') :
    (f <$> act).Runs x tree (.ok (f value)) tree' := by
  rw [map_eq_pure_bind]
  exact first.bind (.pure _)

/-- Work that is handed over is done at once, or the context answers. -/
theorem handOff {work : Act μ α} {P : Except Unavailable α → Prop} (ready : x.Ready tree w)
    (runs : ∀ {w'}, x.Stands tree w' → w'.thread = .toolkit x.context →
      ∃ found, work w' = .done found w' ∧ P (ofWork found)) :
    (TableAccess.handOff x.context none work w).ComesTo x.Calm fun r w' =>
      (∃ outcome, r = .ok outcome ∧ P outcome) ∧ x.Ready tree w' := by
  refine ready.responds.handOff (fun here => ?_) fun {accepted w₁} between onThread => ?_
  · have told := ready.tell (.span .handOff)
    obtain ⟨found, run, holds⟩ := runs told.toStands here
    exact ⟨found, _, run, ⟨⟨_, rfl, holds⟩, told⟩, fun e => ⟨⟨_, rfl, holds⟩, told.tell e⟩⟩
  · have handed : x.Stands tree (w.handed x.context accepted) := ready.toStands.congr rfl rfl rfl
    have ready₁ := handed.calm between
    obtain ⟨found, run, holds⟩ := runs ready₁.toStands onThread
    exact ⟨found, w₁, run, fun between' => ⟨⟨_, rfl, holds⟩, ready₁.toStands.calm between'⟩⟩

/-- A peer reads what there is to be read of its table. -/
theorem query {read : Inquiry (Except Unavailable α)} (mine : x.Peers p) (honest : Reading.Honest read) :
    (Peer.query p read : Act μ _).Runs x tree (.ok (x.outcome p read)) tree := by
  refine ⟨fun {w} ready => ?_⟩
  obtain ⟨latched, hp, gone⟩ := ready.peers mine
  have lost_iff := x.outcome_eq_stale_iff (p := p) honest
  cases latched with
  | true =>
    rw [Peer.query_of_latched (World.latched_of_invalidated hp)]
    exact ⟨congrArg Except.ok (lost_iff.2 (gone rfl)).symm, ready⟩
  | false =>
    rw [Peer.query_of_unlatched hp]
    refine (handOff (P := fun found => Peer.flatten found = x.outcome p read) ready
      fun stands here => stands.consults mine here read).bind ?_ ?_
    · rintro _ w₁ ⟨⟨outcome, same, found⟩, ready₁⟩
      cases same
      by_cases lost : x.Gone p
      · obtain ⟨log, done⟩ := Peer.invalidate_done p w₁
        rw [Peer.settle_of_stale (found.trans (lost_iff.2 lost)), Act.bind_apply, done, lost_iff.2 lost]
        exact ⟨rfl, ready₁.toStands.latch lost log, ready₁.responds⟩
      · rw [Peer.settle_of_ne (found ▸ mt lost_iff.1 lost), found]
        exact ⟨rfl, ready₁⟩
    · rintro e w₁ ⟨⟨outcome, same, -⟩, -⟩
      cases same

/-- A bridge is found to hold the tree, or not. -/
theorem hasTree (node : x.Node a) : (a.hasTree : Act μ Bool).Runs x tree (.ok tree.alive) tree := by
  refine of_done fun {w} ready => ⟨w, ?_, ready⟩
  show Progress.done (.ok (a.tree? w).isSome) w = _
  rw [Adapter.tree?, node.here, ready.planted]
  cases alive : tree.alive <;> simp [Option.filter, alive]

end Act.Runs

/-! ### What nodes read -/

namespace Act.Constant

variable {x : Gallery} {act : Act μ α}

theorem pure (value : α) : (Pure.pure value : Act μ α).Constant x := ⟨value, fun _ => .pure value⟩

theorem bind {f : α → Act μ β} (first : act.Constant x) (rest : ∀ value, (f value).Constant x) :
    (act >>= f).Constant x := by
  obtain ⟨value, runs⟩ := first
  obtain ⟨value', runs'⟩ := rest value
  exact ⟨value', fun tree => (runs tree).bind (runs' tree)⟩

/-- Something else is made of the value. -/
theorem map (first : act.Constant x) (g : α → β) :
    (do let value ← act; Pure.pure (g value) : Act μ β).Constant x := first.bind fun _ => .pure _

theorem tell (e : Event) : (Act.tell e : Act μ Unit).Constant x := ⟨(), fun _ => .tell e⟩

theorem query {read : Inquiry (Except Unavailable α)} (mine : x.Peers p) (honest : Reading.Honest read) :
    (Peer.query p read : Act μ _).Constant x := ⟨_, fun _ => .query mine honest⟩

/-- Whether a table is valid is known from the table. -/
theorem isValid (mine : x.Peers p) : (Peer.isValid p : Act μ Bool).Constant x := by
  have honest : Reading.Honest Reading.nothing := fun e => by cases e
  have there : x.outcome p Reading.nothing = .ok () ∨ x.outcome p Reading.nothing = .error .stalePeer := by
    unfold Gallery.outcome
    split
    · exact .inr rfl
    · split
      · exact .inr rfl
      · exact .inl rfl
  refine ⟨(x.outcome p Reading.nothing).isOk, fun tree => ⟨fun {w} ready => ?_⟩⟩
  obtain ⟨latched, hp, gone⟩ := ready.peers mine
  have lost_iff := x.outcome_eq_stale_iff (p := p) honest
  cases latched with
  | true =>
    rw [Peer.isValid_of_latched (World.latched_of_invalidated hp), lost_iff.2 (gone rfl)]
    exact ⟨rfl, ready⟩
  | false =>
    by_cases dropped : w.table? (x.table p) = none
    · have lost : x.Gone p := fun g shown => by
        rw [ready.tables mine, shown] at dropped
        cases dropped
      obtain ⟨log, done⟩ := Peer.isValid_of_dropped hp dropped
      rw [done, lost_iff.2 lost]
      exact ⟨rfl, ready.toStands.latch lost log, ready.responds⟩
    · rw [Peer.isValid_of_unlatched hp dropped]
      refine (Act.Runs.bind (.query mine honest) ?_).comes ready
      rcases there with live | stale
      · rw [live]
        exact .pure true
      · rw [stale]
        exact .pure false

end Act.Constant

namespace Adapter

variable {x : Gallery}

theorem degrade_constant (question : String) (result : Except Unavailable α) :
    (a.degrade question result : Act μ _).Constant x := by
  cases result with
  | ok value => exact .pure (some value)
  | error cause => exact (Act.Constant.tell _).bind fun _ => .pure none

theorem read_constant (node : x.Node a) (question : String) {read : Inquiry (Except Unavailable α)}
    (honest : Reading.Honest read) : (a.read question read : Act μ _).Constant x :=
  (Act.Constant.query node.peer honest).bind fun _ => degrade_constant question _

theorem shape_constant (node : x.Node a) : (Table.shape a : Act μ _).Constant x :=
  read_constant node "shape" (Reading.honest_ofInquiry _)

theorem header_constant (node : x.Node a) (column : Nat) :
    (Column.header a column : Act μ _).Constant x :=
  (Act.Constant.query node.peer (Reading.honest_ofColumn column _)).bind fun _ =>
    (degrade_constant _ _).map _

theorem snapshot_constant (node : x.Node a) (question : String) (row column : Nat) :
    (Cell.snapshot a question row column : Act μ _).Constant x :=
  read_constant node question (Reading.honest_cell row column)

theorem label_constant (node : x.Node a) : (a.label : Act μ _).Constant x := by
  unfold Adapter.label
  cases a.identity with
  | table => exact (shape_constant node).map _
  | row => exact .pure none
  | column => exact header_constant node _
  | cell => exact (snapshot_constant node _ _ _).map _

theorem indexInParent_constant (node : x.Node a) : (a.indexInParent : Act μ _).Constant x := by
  unfold Adapter.indexInParent
  cases a.identity with
  | table => exact .pure none
  | row => exact read_constant node _ (Reading.honest_ofRow _ _)
  | column => exact read_constant node _ (Reading.honest_ofColumn _ _)
  | cell => exact (snapshot_constant node _ _ _).map _

end Adapter

/-- A node's line is read from its table. -/
theorem Outline.line_constant {x : Gallery} (node : x.Node a) (o : Options) (path : List Bool) :
    (line o path a : Act μ Line).Constant x := by
  rw [line_eq]
  refine (Adapter.label_constant node).bind fun label => Act.Constant.bind ?_ fun index =>
    Act.Constant.map ?_ _
  · split
    · exact Adapter.indexInParent_constant node
    · exact .pure none
  · split
    · rw [map_eq_pure_bind]
      exact (Act.Constant.isValid node.peer).map _
    · exact .pure false

/-! ### Trees at some moment -/

namespace Gallery

variable {x : Gallery} {m : Moment μ}

/-- These are the tables that are attached to a tree: their nodes have peers that refer to them, and the
context of the tree responds. -/
structure Set (x : Gallery) (m : Moment μ) (tree : Tree) : Prop where
  /-- The tree. -/
  planted : m.world.trees[x.tree]? = some tree
  /-- Its context reads the tables. -/
  context : tree.context = x.context
  /-- The keys are those of the tables that are attached. -/
  keys : ∀ {k : NodeKey}, x.Keys k ↔ ∃ a, tree.get? k = some a ∧ a.identity.role = .table
  /-- The peers are those of their nodes. -/
  peers : ∀ {p : PeerId}, x.Peers p ↔
    ∃ k a, tree.get? k = some a ∧ x.Keys a.identity.tableKey ∧ a.peer = p
  /-- They refer to the tables. -/
  tables : ∀ {p : PeerId} {peer : Peer}, x.Peers p → m.world.peers[p]? = some peer →
    peer.table = x.table p ∧ m.world.table? peer.table = (x.shown p).map .grid
  /-- The context responds. -/
  responds : m.world.Responds x.context

theorem Set.holds (set : x.Set m tree) (h : m.Lived) : x.Holds tree where
  indexed := (h.coherent set.planted).indexed
  nodes {k a} stored table :=
    { here := (h.coherent set.planted).here stored
      table
      own := fun isTable => h.keyed.own (h.keyed.stored set.planted stored)
        (Identity.eq_of_role_table isTable)
      peer := set.peers.2 ⟨k, a, stored, table, rfl⟩ }

/-- At that moment they are in their places. -/
theorem Set.ready (set : x.Set m tree) (h : m.Lived) : x.Ready tree m.world := by
  have placed : ∀ {p : PeerId}, x.Peers p → ∃ latched,
      m.world.peers[p]? = some ⟨x.table p, x.context, latched⟩ ∧
        m.world.table? (x.table p) = (x.shown p).map .grid := by
    intro p mine
    obtain ⟨k, a, stored, -, rfl⟩ := set.peers.1 mine
    have here := (h.coherent set.planted).here stored
    obtain ⟨peer, hp, context⟩ := h.referred.context (h.keyed.stored set.planted stored)
      (here.symm ▸ set.planted)
    obtain ⟨refers, table⟩ := set.tables mine hp
    obtain ⟨t, c, latched⟩ := peer
    cases refers
    cases context.trans set.context
    exact ⟨latched, hp, table⟩
  refine ⟨⟨set.planted, fun mine => ?_, fun mine => ?_⟩, set.responds⟩
  · obtain ⟨latched, hp, table⟩ := placed mine
    exact ⟨latched, hp, gone_of_lived h hp table⟩
  · obtain ⟨latched, hp, table⟩ := placed mine
    exact table

end Gallery

/-- An editable table that a peer refers to. -/
def World.editable? (w : World μ) (p : PeerId) : Option GridTable :=
  match w.peers[p]?.bind fun peer => w.table? peer.table with
  | some (.grid g) => some g
  | _ => none

/-- The tables that are attached to a tree, as they are now. -/
def World.gallery (w : World μ) (t : TreeId) (tree : Tree) : Gallery where
  tree := t
  context := tree.context
  Keys k := ∃ a, tree.get? k = some a ∧ a.identity.role = .table
  Peers p := ∃ k a, tree.get? k = some a ∧
    (∃ b, tree.get? a.identity.tableKey = some b ∧ b.identity.role = .table) ∧ a.peer = p
  table p := (w.peers[p]?.map Peer.table).getD 0
  shown p := (w.editable? p).filter fun g => g.owner.all (· = tree.context)
  bound shown owner := by
    have bound := (Option.filter_eq_some_iff.1 shown).2
    rw [owner] at bound
    exact of_decide_eq_true bound

/-- They are a gallery if the context of the tree responds, and the peers of their nodes refer to editable
tables that are bound to nothing else, or to ones that were dropped. -/
theorem World.gallery_set {m : Moment μ} {t : TreeId} (planted : m.world.trees[t]? = some tree)
    (responds : m.world.Responds tree.context)
    (editable : ∀ {p : PeerId} {peer : Peer} {table : Table}, (m.world.gallery t tree).Peers p →
      m.world.peers[p]? = some peer → m.world.table? peer.table = some table →
      ∃ g, table = .grid g ∧ g.owner.all (· = tree.context)) :
    (m.world.gallery t tree).Set m tree := by
  refine ⟨planted, rfl, Iff.rfl, Iff.rfl, fun {p peer} mine hp => ?_, responds⟩
  have refers : (m.world.gallery t tree).table p = peer.table := by simp [gallery, hp]
  refine ⟨refers.symm, ?_⟩
  cases table : m.world.table? peer.table with
  | none => simp [gallery, editable?, hp, table]
  | some there =>
    obtain ⟨g, rfl, bound⟩ := editable mine hp table
    simp [gallery, editable?, hp, table, Option.filter, bound]
end TableAccess
