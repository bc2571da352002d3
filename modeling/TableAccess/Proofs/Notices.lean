import TableAccess.Proofs.Degrading
import TableAccess.Proofs.Queries

/-!
# What is told of readings

A node that is asked for an attribute makes one reading of its table, or none. A reading that fails is
told of once, as a warning if the context is to blame and else for debugging. Nothing of the kind is
told of a reading that has a value, nor of what is known without one: neither by the hand-off, nor by
the nodes that are made then, nor by the question whether the table is valid.

## The model

* `World.failures` — what a thread has told of readings that failed.
* `World.Meanwhile`, `Act.Quiet` — nothing of the kind is told, by others or by an act.
* `Adapter.Notifies` — an act that makes one reading and tells of it, or none.
* `Adapter.answer_notifies` — every attribute is answered so.
* `Bridge.Tells` — what a query tells of its reading.
-/

namespace TableAccess

variable {μ α β γ : Type} {R : World μ → World μ → Prop} {w w' w'' : World μ} {a : Adapter}

/-! ### What is told of failures -/

/-- A reading had no value. -/
def Event.isUnavailable : Event → Bool
  | .queryUnavailable .. => true
  | _ => false

/-- What a thread has told of readings that had no value, the last in front. -/
def World.failures (w : World μ) (θ : Thread) : List Event :=
  (w.log.filter fun e => decide (e.1 = θ) && e.2.isUnavailable).map Prod.snd

theorem World.failures_tell (w : World μ) (e : Event) :
    (w.tell e).failures w.thread =
      if e.isUnavailable then e :: w.failures w.thread else w.failures w.thread := by
  unfold failures tell
  rw [List.filter_cons]
  cases e.isUnavailable <;> simp

/-- A thread goes on as it was, and in its name nothing was told of readings that had no value. -/
structure World.Meanwhile (w w' : World μ) : Prop where
  /-- The thread goes on. -/
  thread : w'.thread = w.thread
  /-- It has told of no others. -/
  failures : w'.failures w.thread = w.failures w.thread

namespace World.Meanwhile

theorem refl (w : World μ) : w.Meanwhile w := ⟨rfl, rfl⟩

theorem trans (h : w.Meanwhile w') (h' : w'.Meanwhile w'') : w.Meanwhile w'' :=
  ⟨h'.thread.trans h.thread, (h.thread ▸ h'.failures).trans h.failures⟩

theorem tell {e : Event} (other : e.isUnavailable = false) : w.Meanwhile (w.tell e) :=
  ⟨rfl, by rw [failures_tell, other]; rfl⟩

theorem of_log (thread : w'.thread = w.thread) (log : w'.log = w.log) : w.Meanwhile w' :=
  ⟨thread, by rw [World.failures, log]; rfl⟩

end World.Meanwhile

/-- An act tells nothing of readings that had no value, whenever the others tell nothing of the kind in
its name. -/
structure Act.Quiet (act : Act μ α) : Prop where
  /-- From where it begins to where it ends. -/
  quiet : ∀ {R : World μ → World μ → Prop} {w w' : World μ} {r : Except Panic α},
    (∀ {w w'}, R w w' → w.Meanwhile w') → act.Ends R w r w' → w.Meanwhile w'

namespace Act.Quiet

variable {act : Act μ α}

theorem pure (x : α) : (pure x : Act μ α).Quiet := ⟨fun _ run => run.pure.2 ▸ .refl _⟩

theorem throw (p : Panic) : (throw p : Act μ α).Quiet := ⟨fun _ run => run.throw.2 ▸ .refl _⟩

theorem bind {f : α → Act μ β} (h : act.Quiet) (rest : ∀ x, (f x).Quiet) : (act >>= f).Quiet := by
  refine ⟨fun others run => ?_⟩
  rcases run.bind with ⟨x, w₁, first, last⟩ | ⟨e, -, first⟩
  · exact (h.quiet others first).trans ((rest x).quiet others last)
  · exact h.quiet others first

theorem get {f : World μ → Act μ α} (h : ∀ w, (f w).Quiet) : (MonadState.get >>= f).Quiet :=
  ⟨fun others run => (h _).quiet others run.get⟩

theorem modify {f : World μ → World μ} {rest : PUnit → Act μ α} (same : ∀ w : World μ, w.Meanwhile (f w))
    (h : (rest ⟨⟩).Quiet) : ((modify f : Act μ PUnit) >>= rest).Quiet :=
  ⟨fun others run => (same _).trans (h.quiet others run.modify)⟩

theorem tell {e : Event} (other : e.isUnavailable = false) : (Act.tell e : Act μ Unit).Quiet := by
  refine ⟨fun _ run => ?_⟩
  obtain ⟨-, rfl⟩ := run.ends
  exact .tell other

theorem attempt (h : act.Quiet) : act.attempt.Quiet := by
  refine ⟨fun others run => ?_⟩
  obtain ⟨_, -, ends⟩ := run.attempt
  exact h.quiet others ends

theorem call (c : ContextId) (k : Ticket) (bound : Duration) (task : Act μ β) :
    (Act.call c k bound task).Quiet := by
  refine ⟨fun others run => ?_⟩
  obtain ⟨_, _, between, -, rfl⟩ := run.ends
  exact others between

theorem leave (c : ContextId) (k : Ticket) (task : Act μ Unit) : (Act.leave c k task).Quiet := by
  refine ⟨fun others run => ?_⟩
  obtain ⟨_, between, -, rfl⟩ := run.ends
  exact others between

theorem each {items : List β} {act : β → Act μ α} (h : ∀ b, (act b).Quiet) :
    (Act.each items act).Quiet := by
  induction items with
  | nil => exact .pure []
  | cons b rest ih =>
    rw [each_cons]
    exact (h b).bind fun _ => ih.bind fun _ => .pure _

theorem makeRoom (item : Room.Item) (count : Nat) : (Act.makeRoom item count : Act μ Unit).Quiet := by
  unfold Act.makeRoom
  split
  · exact .pure ()
  · exact .throw _

/-- A hand-off tells other things. -/
theorem handOff {c : ContextId} {bound : Option Duration} (h : act.Quiet) :
    (handOff c bound act).Quiet := by
  unfold TableAccess.handOff
  refine (tell rfl).bind fun _ => .get fun w => ?_
  split
  · exact .pure _
  · split
    · refine h.attempt.bind fun result => ?_
      split
      · exact (tell rfl).bind fun _ => .pure _
      · exact .pure _
    · refine Quiet.bind (.get fun w => ?_) fun place => ?_
      · split
        · exact .pure _
        · split
          · exact .pure _
          · exact (tell rfl).bind fun _ => .pure _
          · exact .modify (fun _ => .of_log rfl rfl) (.pure _)
      · split
        · exact .pure _
        · unfold runQueued
          refine .get fun _ => ?_
          split
          · refine (call _ _ _ _).bind fun answer => ?_
            split
            · exact .pure _
            · exact .get fun _ => (tell rfl).bind fun _ => .pure _
          · exact (leave _ _ _).bind fun _ => .throw _

end Act.Quiet

/-! ### Readings and nodes -/

theorem consult_quiet (t : TableId) (inquiry : Inquiry α) : (consult t inquiry : Act μ _).Quiet := by
  unfold consult
  refine .get fun w => ?_
  split
  · exact .pure none
  · refine .modify (fun _ => .of_log rfl rfl) ?_
    split
    · exact .pure _
    · exact .throw _

namespace Peer

variable (p : PeerId)

theorem invalidate_quiet : (invalidate p : Act μ Unit).Quiet := by
  unfold invalidate
  refine .get fun w => ?_
  split
  · exact .pure ()
  · split
    · exact .pure ()
    · exact .modify (fun _ => .of_log rfl rfl) (.tell rfl)

theorem query_quiet (read : Inquiry (Except Unavailable α)) : (query p read : Act μ _).Quiet := by
  unfold query
  refine .get fun w => ?_
  split
  · exact .pure _
  · split
    · exact .pure _
    · refine (consult_quiet _ _).handOff.bind fun outcome => ?_
      split
      · exact (invalidate_quiet p).bind fun _ => .pure _
      · exact .pure _

theorem isInvalidated_quiet : (isInvalidated p : Act μ Bool).Quiet := by
  unfold isInvalidated
  refine .get fun w => ?_
  split <;> exact .pure _

theorem isValid_quiet : (isValid p : Act μ Bool).Quiet := by
  unfold isValid
  refine .get fun w => ?_
  split
  · exact .pure false
  · split
    · exact .pure false
    · split
      · exact (invalidate_quiet p).bind fun _ => .pure false
      · refine (query_quiet p _).bind fun told => ?_
        split
        · exact .pure true
        · exact .pure false
        · exact (isInvalidated_quiet p).bind fun _ => .pure _

end Peer

theorem getTree_quiet (t : TreeId) : (getTree t : Act μ Tree).Quiet := by
  unfold getTree
  refine .get fun w => ?_
  split
  · exact .pure _
  · exact .throw _

theorem obtain_quiet (t : TreeId) (i : Identity) (parent : Option NodeKey) (peer : PeerId) :
    (obtain t i parent peer : Act μ Adapter).Quiet := by
  unfold obtain
  refine (getTree_quiet t).bind fun tree => ?_
  split
  · exact .pure _
  · split
    · exact .throw _
    · exact .modify (fun _ => .of_log rfl rfl) ((Act.Quiet.tell rfl).bind fun _ => .pure _)

theorem cellNode_quiet (t : TreeId) (table : NodeKey) (peer : PeerId) (row column : Nat) :
    (cellNode t table peer row column : Act μ Adapter).Quiet :=
  (obtain_quiet _ _ _ _).bind fun _ => obtain_quiet _ _ _ _

namespace Adapter

variable (a)

theorem hasTree_quiet : (a.hasTree : Act μ Bool).Quiet := .get fun _ => .pure _

theorem parentOf_quiet : (a.parentOf : Act μ _).Quiet := by
  have parentNode : (a.parentNode : Act μ _).Quiet := by
    unfold Adapter.parentNode
    split
    · exact .pure none
    · refine (Peer.isInvalidated_quiet _).bind fun gone => ?_
      split
      · exact .pure none
      · exact .get fun _ => .pure _
  unfold parentOf
  split
  · exact .pure none
  · exact parentNode

/-- An act makes one reading, tells of it under the name of a question if it fails, and tells nothing
of the kind otherwise; or it does not read at all, and tells nothing of the kind. -/
inductive Notifies (act : Act μ β) : (reads : Bool) → Prop where
  /-- It makes no reading of the kind. -/
  | unread (quiet : act.Quiet) : Notifies act false
  /-- It makes one. -/
  | reads {α : Type} (question : String) (read : Inquiry (Except Unavailable α))
      (rest : Option α → Act μ β) (run : act = a.read question read >>= rest)
      (quiet : ∀ value, (rest value).Quiet) : Notifies act true

namespace Notifies

variable {a} {act : Act μ β} {reads : Bool}

theorem read (question : String) (read : Inquiry (Except Unavailable α)) :
    a.Notifies (a.read question read : Act μ _) true :=
  .reads question read Pure.pure (bind_pure _).symm .pure

/-- What comes then tells nothing of the kind. -/
theorem next (h : a.Notifies act reads) {f : β → Act μ γ} (goesOn : ∀ b, (f b).Quiet) :
    a.Notifies (act >>= f) reads := by
  cases h with
  | unread quiet => exact .unread (quiet.bind goesOn)
  | reads question read rest run quiet =>
    refine .reads question read (fun value => rest value >>= f) ?_ fun value =>
      (quiet value).bind goesOn
    rw [run, bind_assoc]

/-- Something else is made of the answer. -/
theorem map (h : a.Notifies act reads) (g : β → γ) :
    a.Notifies (do let value ← act; Pure.pure (g value) : Act μ γ) reads := h.next fun _ => .pure _

/-- Nodes are made of what was counted. -/
theorem counted (question : String) (read : Inquiry (Except Unavailable Nat))
    {make : Nat → Act μ Adapter} (quiet : ∀ n, (make n).Quiet) : a.Notifies (do
      match ← a.read question read, ← a.hasTree with
      | some n, true => do
        Act.makeRoom .node n
        Act.each (List.range n) make
      | _, _ => Pure.pure [] : Act μ (List Adapter)) true := by
  refine .reads question read _ rfl fun value => (hasTree_quiet a).bind fun has => ?_
  split
  · exact (Act.Quiet.makeRoom _ _).bind fun _ => .each quiet
  · exact .pure []

end Notifies

theorem shape_notifies : a.Notifies (Table.shape a : Act μ _) true := .read _ Reading.shape

theorem header_notifies (column : Nat) : a.Notifies (Column.header a column : Act μ _) true := by
  refine .reads "header_text" (Reading.headerText column) (fun value => Pure.pure value.join) ?_
    fun _ => .pure _
  rw [Adapter.read, bind_assoc]
  rfl

theorem snapshot_notifies (question : String) (row column : Nat) :
    a.Notifies (Cell.snapshot a question row column : Act μ _) true := .read _ (Reading.cell row column)

theorem children_notifies : a.Notifies (a.children : Act μ _) (a.role.Reads .children) := by
  unfold Adapter.children role
  cases a.identity with
  | table =>
    refine .reads _ Reading.shape _ rfl fun value => ?_
    split
    · refine (hasTree_quiet a).bind fun has => ?_
      split
      · refine (Act.Quiet.makeRoom _ _).bind fun _ => ?_
        refine (Act.Quiet.each fun _ => obtain_quiet _ _ _ _).bind fun _ => ?_
        exact (Act.Quiet.each fun _ => obtain_quiet _ _ _ _).bind fun _ => .pure _
      · exact .pure []
    · exact .pure []
  | row => exact .counted _ (Reading.columnsOfRow _) fun _ => cellNode_quiet _ _ _ _ _
  | column => exact .counted _ (Reading.rowsOfColumn _) fun _ => cellNode_quiet _ _ _ _ _
  | cell => exact .unread (.pure [])

theorem label_notifies : a.Notifies (a.label : Act μ _) (a.role.Reads .label) := by
  unfold Adapter.label role
  cases a.identity with
  | table => exact a.shape_notifies.map _
  | row => exact .unread (.pure none)
  | column => exact a.header_notifies _
  | cell => exact (a.snapshot_notifies _ _ _).map _

theorem childCount_notifies : a.Notifies (a.childCount : Act μ _) (a.role.Reads .childCount) := by
  unfold Adapter.childCount role
  cases a.identity with
  | table => exact a.shape_notifies.map _
  | row => exact .read _ (Reading.columnsOfRow _)
  | column => exact .read _ (Reading.rowsOfColumn _)
  | cell => exact (a.snapshot_notifies _ _ _).map _

theorem indexInParent_notifies : a.Notifies (a.indexInParent : Act μ _) (a.role.Reads .index) := by
  unfold Adapter.indexInParent role
  cases a.identity with
  | table => exact .unread (.pure none)
  | row => exact .read _ (Reading.rowIndex _)
  | column => exact .read _ (Reading.columnIndex _)
  | cell => exact (a.snapshot_notifies _ _ _).map _

theorem roleAnswer_notifies {attr : Attribute}
    (carried : attr ∉ [.valid, .label, .index, .children, .childCount]) :
    a.Notifies (a.roleAnswer attr : Act μ _) (a.role.Reads attr) := by
  unfold Adapter.roleAnswer role
  generalize a.identity = identity
  split
  · exact (Notifies.read _ Reading.rowCount).map _
  · exact (Notifies.read _ Reading.columnCount).map _
  · exact (Notifies.read _ (Reading.rowIndex _)).map _
  · exact (Notifies.read _ (Reading.columnsOfRow _)).map _
  · exact (Notifies.read _ (Reading.columnIndex _)).map _
  · exact (a.header_notifies _).map _
  · exact ((Notifies.read _ (Reading.columnIndex _)).map _).map _
  · exact (Notifies.read _ (Reading.rowsOfColumn _)).map _
  · exact ((a.snapshot_notifies _ _ _).map _).map _
  · exact ((a.snapshot_notifies _ _ _).map _).map _
  · exact ((a.snapshot_notifies _ _ _).map _).map _
  · exact ((a.snapshot_notifies _ _ _).map _).map _
  · exact ((a.snapshot_notifies _ _ _).map _).map _
  · have unread : identity.role.Reads attr = false := by
      cases identity <;> cases attr <;> first | rfl | simp_all
    rw [unread]
    exact .unread (.pure _)

end Adapter

/-- The attributes for which a node makes a reading whose failure is told. Whether the table is valid
is found out too, but says so itself. -/
def Role.Consults (role : Role) (attr : Attribute) : Bool := role.Reads attr && decide (attr ≠ .valid)

/-- Every attribute is answered by one reading that is told of, or by none. -/
theorem Adapter.answer_notifies (a : Adapter) (attr : Attribute) :
    a.Notifies (a.answer attr : Act μ _) (a.role.Consults attr) := by
  unfold Adapter.answer Role.Consults
  split
  · exact .unread (.pure _)
  · rw [decide_eq_false (by simp), Bool.and_false]
    exact .unread ((Peer.isValid_quiet _).bind fun _ => .pure _)
  · rw [decide_eq_true (by simp), Bool.and_true]
    exact a.label_notifies.map _
  · refine .unread (a.parentOf_quiet.bind fun parent => ?_)
    split <;> exact .pure _
  · rw [decide_eq_true (by simp), Bool.and_true]
    exact a.children_notifies.map _
  · rw [decide_eq_true (by simp), Bool.and_true]
    exact a.childCount_notifies.map _
  · rw [decide_eq_true (by simp), Bool.and_true]
    exact a.indexInParent_notifies.map _
  · rename_i role valid label parent children childCount index
    have other : attr ≠ .valid := valid
    rw [decide_eq_true other, Bool.and_true]
    exact a.roleAnswer_notifies (by simp_all)

/-! ### What queries tell -/

/-- What a node tells of a reading: why it failed, if it did. -/
def Adapter.notices (a : Adapter) (question : String) :
    Except Panic (Except Unavailable α) → List Event
  | .ok (.error cause) => [.queryUnavailable a.role a.key.toRaw question cause]
  | _ => []

/-- The others tell nothing, in the name of a thread that waits, of readings that had no value. -/
def Considerate (R : World μ → World μ → Prop) : Prop := ∀ ⦃w w' : World μ⦄, R w w' → w.Meanwhile w'

/-- A reading is told of if it fails, and else nothing is told of it. -/
theorem Adapter.read_tells {question : String} {read : Inquiry (Except Unavailable α)}
    {r : Except Panic (Option α)} (others : Considerate R) (run : (a.read question read).Ends R w r w') :
    ∃ outcome w₁, (a.tryRead read).Ends R w outcome w₁ ∧ w'.thread = w.thread ∧
      w'.failures w.thread = a.notices question outcome ++ w.failures w.thread := by
  have quiet : (a.tryRead read : Act μ _).Quiet := Peer.query_quiet a.peer read
  rcases run.bind with ⟨x, w₁, first, rest⟩ | ⟨e, -, first⟩
  · have meanwhile := quiet.quiet (@others) first
    refine ⟨.ok x, w₁, first, ?_⟩
    cases x with
    | ok value =>
      obtain ⟨-, rfl⟩ := rest.pure
      exact ⟨meanwhile.thread, meanwhile.failures⟩
    | error cause =>
      have rest : (Act.tell (.queryUnavailable a.role a.key.toRaw question cause) >>= fun _ =>
          pure none : Act μ (Option α)).Ends R w₁ r w' := rest
      obtain ⟨-, rfl⟩ := rest.tell.pure
      refine ⟨meanwhile.thread, ?_⟩
      have told := w₁.failures_tell (.queryUnavailable a.role a.key.toRaw question cause)
      rw [meanwhile.thread, meanwhile.failures] at told
      exact told
  · have meanwhile := quiet.quiet (@others) first
    exact ⟨.error e, w', first, meanwhile.thread, meanwhile.failures⟩

/-- What a query tells of the reading it makes. -/
inductive Bridge.Tells (w : World μ) (b : BridgeId) (id : NodeId) (attr : Attribute) (a : Adapter) :
    (consults : Bool) → Prop where
  /-- It makes none, and nothing is told. -/
  | unread (silent : ∀ {R : World μ → World μ → Prop} {r : Except Panic AttributeValue} {w' : World μ},
      Considerate R → (Bridge.query b id attr).Ends R w r w' →
        w'.failures w.thread = w.failures w.thread) : Bridge.Tells w b id attr a false
  /-- It makes one, and why it fails is told once; nothing is told if it does not fail. -/
  | read {α : Type} (question : String) (read : Inquiry (Except Unavailable α))
      (rest : Except Unavailable α → Act μ AttributeValue)
      (reads : Bridge.query b id attr w = (a.tryRead read >>= rest) (w.tell (.span .query)))
      (once : ∀ {R : World μ → World μ → Prop} {r : Except Panic AttributeValue} {w' : World μ},
        Considerate R → (Bridge.query b id attr).Ends R w r w' →
          ∃ outcome w₁, (a.tryRead read).Ends R (w.tell (.span .query)) outcome w₁ ∧
            w'.failures w.thread = a.notices question outcome ++ w.failures w.thread) :
    Bridge.Tells w b id attr a true

/-- A query of a node in the tree tells once of the reading it makes. -/
theorem Bridge.tells {b : BridgeId} {bridge : Bridge} {tree : Tree} {id : NodeId}
    (hb : w.bridges[b]? = some bridge) (ht : w.trees[bridge.tree]? = some tree)
    (found : tree.get? (.ofRaw id) = some a) (attr : Attribute) :
    Bridge.Tells w b id attr a (a.role.Consults attr) := by
  have begun : w.Meanwhile (w.tell (.span .query)) := .tell rfl
  have notifies := (a.answer_notifies (μ := μ) attr).next fun value =>
    (Act.Quiet.tell (e := .queryAnswered id a.role attr value) rfl).bind fun _ => .pure value
  have asked : Bridge.query b id attr w = (a.answer attr >>= fun value => (do
      Act.tell (.queryAnswered id a.role attr value)
      pure value)) (w.tell (.span .query)) := query_eq hb ht found attr
  generalize a.role.Consults attr = consults at notifies ⊢
  cases notifies with
  | unread quiet =>
    exact .unread fun others run =>
      (begun.trans (quiet.quiet (@others) ⟨asked ▸ run.ends⟩)).failures
  | reads question read rest same quiet =>
    rw [same] at asked
    have reads := asked
    rw [Adapter.read, bind_assoc] at reads
    refine .read question read _ reads fun {R r w'} others run => ?_
    have run : (a.read question read >>= rest).Ends R (w.tell (.span .query)) r w' :=
      ⟨asked ▸ run.ends⟩
    rcases run.bind with ⟨value, w₂, first, last⟩ | ⟨e, -, first⟩
    · obtain ⟨outcome, w₁, reads, thread, told⟩ := a.read_tells others first
      have after := (quiet value).quiet (@others) last
      refine ⟨outcome, w₁, reads, ?_⟩
      have told' := after.failures
      rw [thread, told] at told'
      exact told'.trans (congrArg _ begun.failures)
    · obtain ⟨outcome, w₁, reads, -, told⟩ := a.read_tells others first
      exact ⟨outcome, w₁, reads, told.trans (congrArg _ begun.failures)⟩

end TableAccess
