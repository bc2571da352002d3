import TableAccess.Proofs.Gathering
import TableAccess.Proofs.Inert
import TableAccess.Proofs.Looking

/-!
# Nodes that have lost their table

A table that was dropped or disposed of does not come back. Its nodes do not know at first: the peer is
latched by whoever reads the table next. All the same each of them answers every attribute as an inert
node does, whatever was asked before, of it or of others; all but one. Nothing is read for the parent of
a row, column or cell, so the node answers with its parent until somebody asks for something else, and
with no value from then on.

## The model

* `Table.Gone` — a table was dropped, or says that it was disposed of.
* `World.Bereft` — the table of a peer is gone; `Bereft.extends` — it stays so while others look.
* `Peer.query_of_bereft`, `Adapter.answer_of_bereft` — what is answered.
* `lost_tables_answer_alike` — the main statement.
-/

namespace TableAccess

variable {μ α β : Type} {M : Mutations} {w w' : World μ} {p : PeerId} {t : TableId} {c : ContextId}
  {a : Adapter}

/-! ### Tables that are gone -/

namespace Table

/-- A table was dropped, or says that it was disposed of, whatever it is asked before. -/
def Gone : Option Table → Prop
  | none => True
  | some table => ∀ {later : Table}, table.Asked later → ∀ (checksOn : Bool) (now : Thread),
      (later.ask checksOn now .isDisposed).1 = .ok true

/-- An editable table that was disposed of is gone. -/
theorem gone_of_disposed {g : GridTable} (h : g.disposed = true) : Gone (some (.grid g)) := by
  intro later asked checksOn now
  rw [eq_of_asked asked]
  exact congrArg Except.ok h

theorem Gone.ask {table : Table} (h : Gone (some table)) (checksOn : Bool) (now : Thread)
    (q : Question) : Gone (some (table.ask checksOn now q).2) :=
  fun asked => h ((Asked.new.ask checksOn now q).trans asked)

/-- Mutations do not bring a table back. -/
def StaysGone (M : Mutations) (t : TableId) : Prop :=
  ∀ {table later : Option Table}, M t table later → Gone table → Gone later

/-- What is gone stays gone. -/
theorem Becomes.gone {table later : Option Table} (h : Becomes M t table later)
    (stays : StaysGone M t) (gone : Gone table) : Gone later := by
  induction h with
  | refl => exact gone
  | tail _ shifts ih =>
    cases shifts with
    | mutated h => exact stays h ih
    | asked table checksOn now q => exact Gone.ask ih checksOn now q

/-- A reading of a table that is there and gone says so. -/
theorem Gone.run {table : Table} (h : Gone (some table)) (checksOn : Bool) (now : Thread)
    (read : Inquiry (Except Unavailable α)) :
    (Reading.ofLive read).run checksOn now table =
      (.ok (.error .stalePeer), (table.ask checksOn now .isDisposed).2) := by
  have told := h .new checksOn now
  rw [run_ofLive]
  generalize table.ask checksOn now .isDisposed = asked at told
  obtain ⟨answer, after⟩ := asked
  cases told
  rfl

end Table

/-! ### Peers whose table is gone -/

namespace World

/-- The table of a peer is gone. -/
def Bereft (w : World μ) (p : PeerId) (t : TableId) (c : ContextId) : Prop :=
  (∃ invalidated, w.peers[p]? = some ⟨t, c, invalidated⟩) ∧ Table.Gone (w.table? t)

/-- While others look, it stays gone. -/
theorem Bereft.extends (h : w.Bereft p t c) (grown : w.Extends M w') (stays : Table.StaysGone M t) :
    w'.Bereft p t c := by
  obtain ⟨⟨invalidated, hp⟩, gone⟩ := h
  refine ⟨?_, (grown.tables t).gone stays gone⟩
  have latches := grown.peers p
  rw [hp] at latches
  generalize w'.peers[p]? = after at latches
  cases latches with
  | @some _ peer latches =>
    obtain ⟨table, context, invalidated'⟩ := peer
    obtain rfl : table = t := latches.table
    obtain rfl : context = c := latches.context
    exact ⟨invalidated', rfl⟩

/-- While others look, a latch stays. -/
theorem Latched.extends (h : w.Latched p) (grown : w.Extends M w') : w'.Latched p := by
  intro peer hp
  have latches := grown.peers p
  rw [hp] at latches
  generalize before : w.peers[p]? = found at latches
  cases latches with
  | some latches => exact latches.latched (h _ before)

end World

/-- Whoever reads a table that is gone is told so. -/
theorem consult_of_gone (gone : Table.Gone (w.table? t)) (read : Inquiry (Except Unavailable α)) :
    ∃ outcome w', consult t (Reading.ofLive read) w = .done (.ok outcome) w' ∧
      Peer.flatten (.ok outcome) = .error .stalePeer := by
  unfold consult
  rw [Act.bind_apply, Act.get_apply]
  simp only [Progress.bind]
  cases ht : w.table? t with
  | none => exact ⟨none, w, rfl, rfl⟩
  | some table =>
    rw [ht] at gone
    simp only [Table.Gone.run gone]
    exact ⟨some (.error .stalePeer), _, rfl, rfl⟩

/-- A hand-off of a reading of a table that is gone says so, if it is done and answered. -/
theorem handOff_of_bereft (h : w.Bereft p t c) (responds : w.Responds c) (stays : Table.StaysGone M t)
    (read : Inquiry (Except Unavailable α)) :
    (handOff c none (consult t (Reading.ofLive read)) w).ComesTo (World.Extends M) fun result _ =>
      ∃ outcome, result = .ok outcome ∧ Peer.flatten outcome = .error .stalePeer := by
  refine responds.handOff (fun _ => ?_) fun {accepted w₁} between _ => ?_
  · have gone : Table.Gone ((w.tell (.span .handOff)).table? t) := h.2
    obtain ⟨outcome, w', run, told⟩ := consult_of_gone gone read
    exact ⟨_, w', run, ⟨_, rfl, told⟩, fun _ => ⟨_, rfl, told⟩⟩
  · have handed : (w.handed c accepted).Bereft p t c := h
    obtain ⟨outcome, w₂, run, told⟩ := consult_of_gone (handed.extends between stays).2 read
    exact ⟨_, w₂, run, fun _ => ⟨_, rfl, told⟩⟩

namespace Peer

/-- A reading through a peer whose table is gone says so, and the peer is latched. -/
theorem query_of_bereft (h : w.Bereft p t c) (responds : w.Responds c) (stays : Table.StaysGone M t)
    (read : Inquiry (Except Unavailable α)) :
    (query p read w).ComesTo (World.Extends M) fun result w' =>
      result = .ok (.error .stalePeer) ∧ w'.Latched p := by
  obtain ⟨⟨invalidated, hp⟩, gone⟩ := h
  cases invalidated with
  | true =>
    have latched : w.Latched p := World.latched_of_invalidated hp
    rw [query_of_latched latched]
    exact ⟨rfl, latched⟩
  | false =>
    rw [query_of_unlatched hp]
    refine (handOff_of_bereft ⟨⟨_, hp⟩, gone⟩ responds stays read).bind ?_ ?_
    · rintro _ w₁ ⟨outcome, same, told⟩
      cases same
      obtain ⟨w₂, -, run, latched⟩ := invalidate_run (p := p) w₁
      rw [settle_of_stale told, Act.bind_apply, run]
      exact ⟨rfl, latched⟩
    · rintro _ w₁ ⟨outcome, same, -⟩
      cases same

/-- A table that is gone is not valid, and the peer is latched. -/
theorem isValid_of_bereft (h : w.Bereft p t c) (responds : w.Responds c)
    (stays : Table.StaysGone M t) :
    (isValid p w).ComesTo (World.Extends M) fun result w' => result = .ok false ∧ w'.Latched p := by
  have ⟨⟨invalidated, hp⟩, _⟩ := h
  cases invalidated with
  | true =>
    have latched : w.Latched p := World.latched_of_invalidated hp
    rw [isValid_of_latched latched]
    exact ⟨rfl, latched⟩
  | false =>
    by_cases dropped : w.table? t = none
    · obtain ⟨log, done⟩ := isValid_of_dropped hp dropped
      rw [done]
      exact ⟨rfl, latched_latch p w log⟩
    · rw [isValid_of_unlatched hp dropped]
      refine (query_of_bereft h responds stays Reading.nothing).bind ?_ ?_
      · rintro _ w₁ ⟨same, latched⟩
        cases same
        exact ⟨rfl, latched⟩
      · rintro _ w₁ ⟨same, -⟩
        cases same

end Peer

namespace Adapter

/-- What comes to nothing without a reading comes to nothing, and whoever has read knows why. -/
theorem Withholds.comesTo_of_bereft {act : Act μ β} {nothing : β} {reads : Bool}
    (withholds : a.Withholds act nothing reads) (h : w.Bereft a.peer t c) (responds : w.Responds c)
    (stays : Table.StaysGone M t) :
    (act w).ComesTo (World.Extends M) fun result w' =>
      result = .ok nothing ∧ (reads = true → w'.Latched a.peer) := by
  cases withholds with
  | unread answers =>
    rw [answers]
    exact ⟨rfl, nofun⟩
  | reads read f run fails =>
    rw [run, Act.bind_apply]
    refine (Peer.query_of_bereft h responds stays read).bind ?_ ?_
    · rintro _ w₁ ⟨same, latched⟩
      cases same
      obtain ⟨log, answers⟩ := fails .stalePeer w₁
      rw [answers]
      exact ⟨rfl, fun _ => latched⟩
    · rintro _ w₁ ⟨same, -⟩
      cases same

/-- A node whose table is gone answers as an inert one does, but for its parent; and if it has read
for that, it is inert from then on. -/
theorem answer_of_bereft (h : w.Bereft a.peer t c) (responds : w.Responds c)
    (stays : Table.StaysGone M t) {attr : Attribute} (other : attr ≠ .parent) :
    (a.answer attr w).ComesTo (World.Extends M) fun result w' =>
      result = .ok (a.inert attr) ∧ (a.role.Reads attr = true → w'.Latched a.peer) := by
  by_cases role : attr = .role
  · subst role
    refine ⟨rfl, fun reads => ?_⟩
    cases h : a.role <;> rw [h] at reads <;> cases reads
  · by_cases valid : attr = .valid
    · subst valid
      refine (Peer.isValid_of_bereft h responds stays).bind ?_ ?_
      · rintro _ w₁ ⟨same, latched⟩
        cases same
        exact ⟨rfl, fun _ => latched⟩
      · rintro _ w₁ ⟨same, -⟩
        cases same
    · rw [inert_eq_withheld role valid]
      exact (a.answer_withholds role valid other).comesTo_of_bereft h responds stays

/-- The parent of a node whose peer is not latched is the node under its key. -/
theorem parentOf_of_unlatched {k : NodeKey} {tree : Tree} {b : Adapter} (unlatched : ¬w.Latched a.peer)
    (part : a.role ≠ .table) (parent : a.parent = some k) (held : a.tree? w = some tree)
    (stored : tree.get? k = some b) : a.parentOf w = .done (.ok (some b)) w := by
  have found : a.parentNode w = .done (.ok (some b)) w := by
    obtain ⟨t, c, hp⟩ := World.not_latched_iff.1 unlatched
    rw [parentNode_run held hp rfl, parent, Option.bind_some, stored]
  unfold parentOf
  unfold role at part
  cases identity : a.identity with
  | table => simp [identity, Identity.role] at part
  | _ => exact found

end Adapter

/-- What a query about a node is answered when its table is gone, and the tree has had some nodes. -/
structure Bridge.Bereaved (M : Mutations) (b : BridgeId) (id : NodeId) (a : Adapter) (tree : Tree)
    (w : World μ) : Prop where
  /-- Any attribute but the parent is answered as an inert node does. If the node has read its table
  for that, or looked for it, the peer is latched. -/
  alike : ∀ {attr : Attribute}, attr ≠ .parent →
    (Bridge.query b id attr w).ComesTo (World.Extends M) fun result w' =>
      result = .ok (a.inert attr) ∧ (a.role.Reads attr = true → w'.Latched a.peer)
  /-- So is the parent of a table, which has none, and that of any other node if the peer is latched. -/
  alone : a.role = .table ∨ w.Latched a.peer →
    ∃ log, Bridge.query b id .parent w = .done (.ok .none) { w with log := log }
  /-- Before that a row, a column or a cell answers with its parent. -/
  parent : ∀ {k : NodeKey}, a.role ≠ .table → ¬w.Latched a.peer → a.parent = some k →
    (tree.get? k).isSome → tree.alive = true →
    ∃ log, Bridge.query b id .parent w = .done (.ok (.node k.toRaw)) { w with log := log }

theorem Bridge.query_parent {b : BridgeId} {bridge : Bridge} {tree : Tree} {id : NodeId}
    {parent : Option Adapter} (hb : w.bridges[b]? = some bridge)
    (ht : w.trees[bridge.tree]? = some tree) (ha : tree.get? (.ofRaw id) = some a)
    (run : a.parentOf (w.tell (.span .query)) = .done (.ok parent) (w.tell (.span .query))) :
    ∃ log, Bridge.query b id .parent w =
      .done (.ok ((parent.map fun b => .node b.key.toRaw).getD .none)) { w with log := log } := by
  rw [Bridge.query_eq hb ht ha, a.answer_parent run]
  exact ⟨_, rfl⟩

theorem Bridge.bereaved {b : BridgeId} {bridge : Bridge} {tree tree' : Tree} {id : NodeId}
    (hb : w.bridges[b]? = some bridge) (ht : w.trees[bridge.tree]? = some tree')
    (coherent : tree'.Coherent bridge.tree) (grown : tree.Extends tree')
    (ha : tree.get? (.ofRaw id) = some a) (bereft : w.Bereft a.peer t c) (responds : w.Responds c)
    (stays : Table.StaysGone M t) : Bridge.Bereaved M b id a tree w where
  alike {attr} other := by
    rw [Bridge.query_eq hb ht (grown.stays ha)]
    have answers := a.answer_of_bereft (w := w.tell (.span .query)) bereft responds stays other
    refine answers.bind ?_ ?_
    · rintro _ w₁ ⟨same, latched⟩
      cases same
      exact ⟨rfl, latched⟩
    · rintro _ w₁ ⟨same, -⟩
      cases same
  alone cases' := by
    have none : a.parentOf (w.tell (.span .query)) = .done (.ok none) (w.tell (.span .query)) := by
      rcases cases' with isTable | latched
      · unfold Adapter.parentOf
        rw [Identity.eq_of_role_table isTable]
        rfl
      · exact Adapter.parentOf_of_latched latched
    exact Bridge.query_parent hb ht (grown.stays ha) none
  parent {k} part unlatched parent there alive := by
    obtain ⟨p, stored⟩ := Option.isSome_iff_exists.1 there
    have stored' := grown.stays stored
    have held : a.tree? (w.tell (.span .query)) = some tree' := by
      have ht : (w.tell (.span .query)).trees[bridge.tree]? = some tree' := ht
      rw [Adapter.tree?, coherent.here (grown.stays ha), ht]
      simp [grown.alive, alive]
    have run := Bridge.query_parent hb ht (grown.stays ha)
      (Adapter.parentOf_of_unlatched (w := w.tell (.span .query)) unlatched part parent held stored')
    rw [← coherent.indexed.key stored']
    exact run

/-- **What is asked of nodes that have lost their table, and in which order, makes no difference but for
parents.** A node of a table that was dropped or disposed of is in a tree. Whatever the threads then
ask for, of this node or of others, and however they take turns: whoever asks the node for any attribute
but its parent, while its context responds, gets the answer of an inert node, and if it is one for which
the table is read, or looked for, the peer is latched. A table has no parent; any other node answers
with its parent as long as the peer is not latched, and with no value when it is; and that stays so. -/
theorem lost_tables_answer_alike {s s' : Timeline μ} (looking : s.toAgenda.Looking M)
    (coherent : s.world.Coherent) (later : s.Reaches s') {b : BridgeId} {bridge : Bridge} {tree : Tree}
    {id : NodeId} (hb : s.world.bridges[b]? = some bridge)
    (ht : s.world.trees[bridge.tree]? = some tree) (ha : tree.get? (.ofRaw id) = some a)
    (bereft : s.world.Bereft a.peer t c) (stays : Table.StaysGone M t) (thread : Thread)
    (responds : ({ s'.world with thread := thread } : World μ).Responds c) :
    Bridge.Bereaved M b id a tree { s'.world with thread := thread } ∧
      (s.world.Latched a.peer → s'.world.Latched a.peer) := by
  obtain ⟨⟨grown, coherent'⟩, -⟩ := later.leaves Conduct.looking_lasting looking.keeps coherent
  obtain ⟨tree', ht', grows⟩ := grown.tree ht
  have hb' : s'.world.bridges[b]? = some bridge := grown.bridges ▸ hb
  have bereft' : s'.world.Bereft a.peer t c := bereft.extends grown stays
  exact ⟨Bridge.bereaved hb' ht' (coherent' ht') grows ha bereft' responds stays,
    fun latched => latched.extends grown⟩

/-! ### A row whose table was dropped -/

/-- The table was attached, its first row got a node, and the table was dropped. -/
def World.withOrphanedRow : World Unit :=
  { (World.attached () (.toolkit 0) (.start .default) (.grid (.ofGrid ⟨"", [""], [[""]]⟩))).modifyTree 0
      (·.add .firstRow) with tables := [none] }

theorem Moment.lived_of_orphanedRow : ∃ m : Moment Unit, m.Lived ∧ m.world = .withOrphanedRow := by
  obtain ⟨m, lived, e, -⟩ := lived_of_part (.grid (.ofGrid ⟨"", [""], [[""]]⟩)) Context.spawn_default
    (.grid (by simp [Grid.Rectangular])) () (.toolkit 0) (.inl rfl)
  exact ⟨_, lived.goes (Step.tables (.drop 0)).goes, by simp only [e]; rfl⟩

/-- A row that has lost its table is asked for its index. -/
def Timeline.asksOrphanedRow : Timeline Unit :=
  ⟨⟨⟨some (.mk (.toolkit 0) (Request.act (.query 0 Adapter.firstRow.key.toRaw .rowIndex))
    fun _ => none), [], [], []⟩, .withOrphanedRow⟩, [], []⟩

/-- Once it was, its answers are those of an inert node, and its parent is among them. -/
theorem lost_tables_answer_alike_row : ∃ (s : Timeline Unit) (tree : Tree),
    Timeline.asksOrphanedRow.Reaches s ∧
    ¬Timeline.asksOrphanedRow.world.Latched Adapter.firstRow.peer ∧
    s.world.Latched Adapter.firstRow.peer ∧
    Bridge.Bereaved (fun _ _ _ => False) 0 Adapter.firstRow.key.toRaw .firstRow tree
      { s.world with thread := .toolkit 0 } := by
  obtain ⟨m, lived, e⟩ := Moment.lived_of_orphanedRow
  have looking : Timeline.asksOrphanedRow.toAgenda.Looking fun _ _ _ => False := by
    refine ⟨fun strand mem => ?_, rfl, rfl⟩
    obtain rfl := Option.some.inj (mem.resolve_right nofun)
    exact ⟨_, _, _, rfl, .request trivial trivial⟩
  have coherent : Timeline.asksOrphanedRow.world.Coherent := fun ht => lived.coherent (e.symm ▸ ht)
  have turn : Timeline.asksOrphanedRow.Turn _ := .works rfl
  obtain ⟨tree, ht, ha⟩ : ∃ tree, World.withOrphanedRow.trees[0]? = some tree ∧
      tree.get? (.ofRaw Adapter.firstRow.key.toRaw) = some .firstRow := ⟨_, rfl, rfl⟩
  have hb : World.withOrphanedRow.bridges[0]? = some ⟨0, none⟩ := rfl
  have answers := (lost_tables_answer_alike looking coherent turn.reaches hb ht ha
    ⟨⟨false, rfl⟩, trivial⟩ nofun (.toolkit 0) ⟨_, rfl, fun off => absurd rfl off⟩).1
  exact ⟨_, tree, turn.reaches, World.not_latched_iff.2 ⟨0, 0, rfl⟩,
    World.latched_of_invalidated (t := 0) (c := 0) rfl, answers⟩

/-- The row answers with the table as its parent; when it was asked for its index, it does not. -/
theorem parent_depends_on_questions : ∃ (m : Moment Unit) (w : World Unit), m.Lived ∧
    m.world.table? 0 = none ∧
    (∃ w', Bridge.query 0 Adapter.firstRow.key.toRaw .parent m.world =
      .done (.ok (.node (Arena.keyAt 0 1).toRaw)) w') ∧
    Bridge.query 0 Adapter.firstRow.key.toRaw .rowIndex m.world = .done (.ok .none) w ∧
    ∃ w', Bridge.query 0 Adapter.firstRow.key.toRaw .parent w = .done (.ok .none) w' := by
  obtain ⟨m, lived, e⟩ := Moment.lived_of_orphanedRow
  exact ⟨m, _, lived, by rw [e]; rfl, ⟨_, by rw [e]; rfl⟩, by rw [e]; rfl, ⟨_, rfl⟩⟩

end TableAccess
