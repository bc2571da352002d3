import TableAccess.Proofs.Degrading
import TableAccess.Proofs.Latches
import TableAccess.Proofs.Recycling

/-!
# Inert nodes

A node whose peer is latched knows that its table is gone, and answers at once. It still tells what it
stands for, and that it is not valid; everything else has no value, but for its children: there are
none, and the answer is an empty list, which is also what a table without rows and columns answers.
What is asked of a node that does not exist has no value, whatever it is.

## The model

* `Adapter.inert` — what an inert node answers; `Adapter.answer_of_latched` — that it does.
* `inert_nodes_have_no_values` — the main statement.
-/

namespace TableAccess

variable {μ : Type} {w : World μ} {a : Adapter} {b : BridgeId} {bridge : Bridge} {tree : Tree}
  {id : NodeId}

namespace Adapter

/-- What a node answers when its table is known to be gone: what it stands for, that it is not valid,
an empty list of children, and no value for anything else. -/
def inert (a : Adapter) : Attribute → AttributeValue
  | .role => .role a.role
  | .valid => .bool false
  | .children => .nodes []
  | _ => .none

/-- It answers nothing but what it would answer if a reading failed. -/
theorem inert_eq_withheld {attr : Attribute} (role : attr ≠ .role) (valid : attr ≠ .valid) :
    a.inert attr = withheld attr := by
  cases attr <;> first | rfl | contradiction

theorem parentOf_of_latched (h : w.Latched a.peer) : a.parentOf w = .done (.ok none) w := by
  have none : a.parentNode w = .done (.ok none) w := by
    unfold parentNode
    cases a.parent with
    | none => rfl
    | some k =>
      dsimp only
      rw [Act.bind_apply, Peer.isInvalidated_of_latched h]
      rfl
  unfold parentOf
  cases a.identity with
  | table => rfl
  | _ => exact none

/-- What comes to nothing without a reading comes to nothing when the table is known to be gone. -/
theorem Withholds.run_of_latched {β : Type} {act : Act μ β} {nothing : β} {reads : Bool}
    (h : a.Withholds act nothing reads) (latched : w.Latched a.peer) :
    ∃ log, act w = .done (.ok nothing) { w with log := log } := by
  cases h with
  | unread answers => exact ⟨w.log, by rw [answers]; rfl⟩
  | reads read f run fails =>
    obtain ⟨log, nothing⟩ := fails .stalePeer w
    refine ⟨log, ?_⟩
    rw [run, Act.bind_apply, tryRead, Peer.query_of_latched latched]
    exact nothing

/-- An inert node answers at once, and changes nothing but the log. -/
theorem answer_of_latched (latched : w.Latched a.peer) (attr : Attribute) :
    ∃ log, a.answer attr w = .done (.ok (a.inert attr)) { w with log := log } := by
  cases attr with
  | role => exact ⟨w.log, rfl⟩
  | valid =>
    refine ⟨w.log, ?_⟩
    show (a.isValid >>= _ : Act μ AttributeValue) w = _
    rw [Act.bind_apply, isValid, Peer.isValid_of_latched latched]
    rfl
  | parent => exact ⟨w.log, a.answer_parent (parentOf_of_latched latched)⟩
  | _ => exact (a.answer_withholds (by nofun) (by nofun) (by nofun)).run_of_latched latched

end Adapter

/-- A query about an id that names no node, and about a node whose peer is latched, is answered at
once, and the world is as it was but for the log. Whatever is asked, there is no value for an id that
names no node. A node whose peer is latched, of whatever kind, tells what it stands for and that it
is not valid; it has no value for any other attribute, but for its children, of which it answers an
empty list. -/
theorem inert_nodes_have_no_values (hb : w.bridges[b]? = some bridge)
    (ht : w.trees[bridge.tree]? = some tree) (attr : Attribute) :
    (tree.get? (.ofRaw id) = none →
      ∃ log, Bridge.query b id attr w = .done (.ok .none) { w with log := log }) ∧
    ∀ a, tree.get? (.ofRaw id) = some a → w.Latched a.peer →
      ∃ log, Bridge.query b id attr w = .done (.ok (a.inert attr)) { w with log := log } := by
  constructor
  · intro unknown
    exact ⟨_, World.query_of_absent hb ht unknown attr⟩
  · intro a ha latched
    have latched : (w.tell (.span .query)).Latched a.peer := latched
    obtain ⟨log, run⟩ := a.answer_of_latched latched attr
    refine ⟨(w.thread, .queryAnswered id a.role attr (a.inert attr)) :: log, ?_⟩
    rw [Bridge.query_eq hb ht ha, run]
    rfl

/-! ### An empty table, and one that is gone -/

namespace Moment

/-- A table without rows and columns was attached, as the thread of its context sees it. -/
theorem lived_of_emptyTable : ∃ m : Moment Unit, m.Lived ∧ m.world = .attached () (.toolkit 0)
    (.start .default) (.grid (.ofGrid ⟨"", [], []⟩)) := by
  obtain ⟨m, lived, e, -⟩ := Moment.lived_of_grid (g := ⟨"", [], []⟩) (by simp [Grid.Rectangular]) ()
    (.toolkit 0)
  exact ⟨m, lived, e⟩

/-- It was dropped, and its peer knows. -/
theorem lived_of_latched : ∃ m : Moment Unit, m.Lived ∧ m.world.Latched 0 ∧
    m.world = { World.attached () (.toolkit 0) (.start .default) (.grid (.ofGrid ⟨"", [], []⟩)) with
      tables := [none], peers := [⟨0, 0, true⟩] } := by
  obtain ⟨m, lived, e⟩ := lived_of_emptyTable
  have dropped := lived.goes (Step.tables (m := m) (.drop 0)).goes
  have latched := dropped.goes (Step.trees (.invalidate (p := 0)
    (show _ = some ⟨0, 0, false⟩ by simp only [e]; rfl) (.inl (by simp only [e]; rfl)))).goes
  refine ⟨_, latched, fun peer hp => ?_, by simp only [e]; rfl⟩
  simp only [e] at hp
  cases hp
  rfl

end Moment

/-- So answers the node of a table that was dropped, when that is known. -/
theorem inert_nodes_have_no_values_table : ∃ (m : Moment Unit) (a : Adapter), m.Lived ∧
    m.world.Latched a.peer ∧ a.role = .table ∧
      ∀ attr, ∃ log, Bridge.query 0 a.key.toRaw attr m.world =
        .done (.ok (a.inert attr)) { m.world with log := log } := by
  obtain ⟨m, lived, latched, e⟩ := Moment.lived_of_latched
  have hb : m.world.bridges[0]? = some ⟨0, none⟩ := by rw [e]; rfl
  obtain ⟨tree, ht, ha⟩ : ∃ tree, m.world.trees[0]? = some tree ∧
      tree.get? (.ofRaw Adapter.firstTable.key.toRaw) = some .firstTable :=
    ⟨_, by rw [e]; rfl, rfl⟩
  exact ⟨m, .firstTable, lived, latched, rfl,
    fun attr => (inert_nodes_have_no_values hb ht attr).2 _ ha latched⟩

/-- Asked for its children, it answers as it did while the table was there. -/
theorem inert_children_are_not_none : ∃ (m m' : Moment Unit) (a : Adapter), m.Lived ∧ m'.Lived ∧
    ¬m.world.Latched a.peer ∧ m'.world.Latched a.peer ∧
      (∃ w, Bridge.query 0 a.key.toRaw .children m.world = .done (.ok (.nodes [])) w) ∧
      ∃ w, Bridge.query 0 a.key.toRaw .children m'.world = .done (.ok (.nodes [])) w := by
  obtain ⟨m, lived, e⟩ := Moment.lived_of_emptyTable
  obtain ⟨m', lived', latched, e'⟩ := Moment.lived_of_latched
  refine ⟨m, m', .firstTable, lived, lived', World.not_latched_iff.2 ⟨0, 0, ?_⟩, latched, ?_, ?_⟩
  · rw [e]
    rfl
  · rw [e]
    exact ⟨_, rfl⟩
  · rw [e']
    exact ⟨_, rfl⟩

end TableAccess
