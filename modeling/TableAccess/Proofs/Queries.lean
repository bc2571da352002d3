import TableAccess.Proofs.Books
import TableAccess.Proofs.Lawful
import TableAccess.Proofs.Parts

/-!
# Queries

A query from outside the toolkit thread reads the table in one task, whatever is asked, and the
contents it finds are those that the tasks accepted before it have left, one after the other. What it
answers is what these contents say.

## The model

* `Adapter.Answers` — the answer of a node in view of some contents.
* `Adapter.Takes` — how a node answers any attribute; `Asked.takes` — that it answers so.
* `Moment.Begins`, `Moment.Serves` — a task is taken up; a table is there to be read.
* `Moment.Settled` — the tasks accepted by then have run, and no others.
* `Act.HandsOver` — an act leaves one task to a context, waits for it, and is over when it goes on.
* `queries_read_one_state` — the main statement.
-/

namespace TableAccess

variable {μ α β : Type} {w w' : World μ} {m m' : Moment μ} {a : Adapter} {attr : Attribute}
  {c : ContextId} {t : TableId}

/-! ### What nodes answer -/

namespace Adapter

/-- What a node answers, in view of some contents of its table. -/
inductive Answers (a : Adapter) (g : Grid) (w : World μ) :
    Attribute → Except Panic AttributeValue → Prop where
  /-- It shows what the contents say. -/
  | plain {attr : Attribute} (h : attr ≠ .parent) (h' : attr ≠ .children) :
    Answers a g w attr (.ok (g.shows a.identity attr))
  /-- Its parent is in the tree. -/
  | parent {b : Adapter} (own : a.parent = some b.key) (there : w.Holds a.tree b) :
    Answers a g w .parent (.ok (.node b.key.toRaw))
  /-- It has no parent in the tree. -/
  | noParent (none : ∀ b, a.parent = some b.key → ¬w.Holds a.tree b) :
    Answers a g w .parent (.ok .none)
  /-- Its children are the nodes of the parts that the contents have, unless they find no room. -/
  | children {result : Except Panic (List Adapter)}
      (names : w.Names a.tree (g.parts a.identity) result) :
    Answers a g w .children (result.map fun nodes => .nodes (ids nodes))

/-- Only the nodes of the tree matter. -/
theorem Answers.of_trees {g : Grid} {result : Except Panic AttributeValue}
    (h : a.Answers g w attr result) (same : w'.trees = w.trees) : a.Answers g w' attr result := by
  have holds : ∀ {b : Adapter}, w'.Holds a.tree b ↔ w.Holds a.tree b := by
    unfold World.Holds
    rw [same]
  cases h with
  | plain h h' => exact .plain h h'
  | parent own there => exact .parent own (holds.2 there)
  | noParent none => exact .noParent fun b own there => none b own (holds.1 there)
  | children names =>
    refine .children ?_
    cases names with
    | nodes stand there => exact .nodes stand fun b hb => holds.2 (there b hb)
    | noList long => exact .noList long
    | noNode full =>
      refine .noNode ?_
      unfold World.Full
      rw [same]
      exact full

/-- What a node relies on that is asked for an attribute: its tree is held, its table is there, and
its peer knows. -/
structure Asked (a : Adapter) (w : World μ) : Prop where
  /-- The node of a table is the table's. -/
  own : ∀ k, a.identity = .table k → a.key = k
  /-- Only the node of a table has no parent. -/
  root : ∀ k, a.identity = .table k → a.parent = none
  /-- Its tree is coherent. -/
  sound : w.Sound a.tree
  /-- A bridge holds the tree. -/
  held : (a.tree? w).isSome
  /-- Its table is there. -/
  there : ∃ peer, w.peers[a.peer]? = some peer ∧ peer.invalidated = false ∧
    (w.table? peer.table).isSome

/-- How a node answers any attribute: at once, or from one reading of its table. -/
inductive Takes (a : Adapter) (attr : Attribute) (w : World μ) : Prop where
  /-- It answers at once, in a way that goes with any contents. -/
  | known {value : AttributeValue} {w' : World μ} (run : a.answer attr w = .done (.ok value) w')
      (answers : ∀ g, a.Answers g w' attr (.ok value))
  /-- It reads the table once, and goes on with what comes of that. -/
  | reads {α : Type} {read : Inquiry (Except Unavailable α)}
      {f : Except Unavailable α → Act μ AttributeValue}
      (run : a.answer attr w = (Peer.query a.peer read w).bind f)
      (answers : ∀ t : GridTable, t.grid.Rectangular → ∃ result, read.Reads t result ∧
        ∀ later : World μ, later.Sound a.tree → (a.tree? later).isSome →
          ∃ answer w', f result later = .done answer w' ∧ a.Answers t.grid w' attr answer)

/-- The parent is looked up in the tree. -/
theorem parentNode_run {tree : Tree} {peer : Peer} (held : a.tree? w = some tree)
    (hp : w.peers[a.peer]? = some peer) (valid : peer.invalidated = false) :
    (a.parentNode : Act μ _) w = .done (.ok (a.parent.bind tree.get?)) w := by
  unfold parentNode Peer.isInvalidated
  cases a.parent with
  | none => rfl
  | some k =>
    simp only [Act.bind_apply, Act.get_apply, Progress.bind, hp, valid, Act.pure_apply,
      Bool.false_eq_true, if_false]
    show Progress.done (.ok ((a.tree? w).bind (·.get? k))) w = _
    rw [held]
    rfl

theorem Asked.takes_parent (h : a.Asked w) : a.Takes .parent w := by
  obtain ⟨tree, ht, coherent⟩ := h.sound
  obtain ⟨peer, hp, valid, -⟩ := h.there
  have held : a.tree? w = some tree := by
    obtain ⟨tree', e⟩ := Option.isSome_iff_exists.1 h.held
    have same := (Option.filter_eq_some_iff.1 e).1
    rw [ht] at same
    rw [e, ← same]
  have looked : (a.parentOf : Act μ _) w = .done (.ok (a.parent.bind tree.get?)) w := by
    have parentNode := parentNode_run held hp valid
    unfold parentOf
    cases e : a.identity with
    | table k =>
      rw [h.root k e]
      rfl
    | _ => exact parentNode
  cases e : a.parent.bind tree.get? with
  | some b =>
    obtain ⟨k, parent, stored⟩ := Option.bind_eq_some_iff.1 e
    have own := coherent.indexed.key stored
    have run : a.answer .parent w = .done (.ok (.node b.key.toRaw)) w := by
      show ((a.parentOf : Act μ _) w).bind _ = _
      rw [looked, e]
      rfl
    exact .known run fun _ => .parent (own ▸ parent) ⟨tree, ht, coherent, own ▸ stored⟩
  | none =>
    have run : a.answer .parent w = .done (.ok .none) w := by
      show ((a.parentOf : Act μ _) w).bind _ = _
      rw [looked, e]
      rfl
    refine .known run ?_
    intro _
    apply Answers.noParent
    rintro b parent ⟨tree', ht', -, stored⟩
    rw [ht] at ht'
    cases ht'
    rw [parent, Option.bind_some, stored] at e
    cases e

theorem Asked.takes_valid (h : a.Asked w) : a.Takes .valid w := by
  obtain ⟨peer, hp, valid, there⟩ := h.there
  obtain ⟨f, run, valued⟩ : ∃ f, (Peer.isValid a.peer : Act μ Bool) w =
      (Peer.query a.peer Reading.nothing w).bind f ∧ f (.ok ()) = pure true := by
    unfold Peer.isValid
    simp only [Act.bind_apply, Act.get_apply, Progress.bind, hp, valid,
      Option.isNone_eq_false_iff.2 there, Bool.false_eq_true, if_false]
    exact ⟨_, rfl, rfl⟩
  have answers : a.answer .valid w = (Peer.query a.peer Reading.nothing w).bind fun r => (do
      let valid ← f r
      pure (.bool valid)) := by
    show (Peer.isValid a.peer w).bind _ = _
    rw [run, Progress.bind_assoc]
    rfl
  refine .reads answers fun t _ => ⟨_, Reading.nothing_reads, fun later _ _ => ?_⟩
  refine ⟨.ok (.bool true), later, ?_, .plain (by simp) (by simp)⟩
  rw [valued]
  rfl

/-- A reading that has no value is told, and no more. -/
theorem degrade_run (question : String) (result : Except Unavailable α) (w : World μ) :
    ∃ w', a.degrade question result w = .done (.ok result.toOption) w' ∧ w'.trees = w.trees := by
  cases result with
  | ok value => exact ⟨w, rfl, rfl⟩
  | error u => exact ⟨_, rfl, rfl⟩

theorem takes_children (own : ∀ k, a.identity = .table k → a.key = k) : a.Takes .children w := by
  cases a.divides (μ := μ) own with
  | known children divided =>
    have run : a.answer .children w = .done (.ok (.nodes [])) w := by
      simp only [answer, children]
      rfl
    refine .known run ?_
    intro g
    have names : w.Names a.tree (g.parts a.identity) (.ok []) := by
      rw [divided]
      exact .nodes rfl fun b hb => by cases hb
    exact .children names
  | @reads α question read f children divided =>
    have run : a.answer .children w = (Peer.query a.peer read w).bind fun r => (do
        let nodes ← a.degrade question r >>= f
        pure (.nodes (ids nodes))) := by
      simp only [answer, children, Adapter.read, tryRead, bind_assoc]
      rfl
    refine .reads run ?_
    intro t rectangular
    obtain ⟨result, reads, yields⟩ := divided t rectangular
    refine ⟨result, reads, ?_⟩
    intro later sound held
    obtain ⟨w₁, told, trees⟩ := degrade_run (a := a) question result later
    have sound₁ : w₁.Sound a.tree := by
      unfold World.Sound
      rwa [trees]
    have held₁ : (a.tree? w₁).isSome := by
      unfold tree?
      rwa [trees]
    obtain ⟨nodes, w₂, found, names⟩ := (yields w₁ sound₁ held₁).ends
    refine ⟨nodes.map fun nodes => .nodes (ids nodes), w₂, ?_, .children names⟩
    rw [Act.bind_apply, Act.bind_apply, told]
    show ((f result.toOption) w₁).bind _ = _
    rw [found]
    cases nodes <;> rfl

/-- Every node answers so that is asked. -/
theorem Asked.takes (h : a.Asked w) (attr : Attribute) : a.Takes attr w := by
  by_cases isParent : attr = .parent
  · exact isParent ▸ h.takes_parent
  by_cases isChildren : attr = .children
  · exact isChildren ▸ takes_children h.own
  by_cases isValid : attr = .valid
  · exact isValid ▸ h.takes_valid
  cases a.plain (μ := μ) isParent isChildren isValid with
  | @known value answers shown =>
    have run : a.answer attr w = .done (.ok value) w := by
      rw [answers]
      rfl
    refine .known run ?_
    intro g
    rw [← shown g]
    exact .plain isParent isChildren
  | @reads α question read f answers shown =>
    have run : a.answer attr w = (Peer.query a.peer read w).bind fun r => (do
        let value ← a.degrade question r
        pure (f value)) := by
      simp only [answers, Adapter.read, tryRead, map_eq_pure_bind, bind_assoc]
      rfl
    refine .reads run ?_
    intro t rectangular
    obtain ⟨result, reads, shows⟩ := shown t rectangular
    refine ⟨result, reads, ?_⟩
    intro later _ _
    obtain ⟨w₁, told, -⟩ := degrade_run (a := a) question result later
    refine ⟨.ok (f result.toOption), w₁, ?_, ?_⟩
    · rw [Act.bind_apply, told]
      rfl
    · rw [shows]
      exact .plain isParent isChildren

end Adapter

/-! ### Hand-offs that are answered -/

theorem Moment.goes_handed {context accepted : Context Ticket}
    (hc : m.world.contexts[c]? = some context) (h : context.accept m.world.tickets = .ok accepted) :
    m.Goes ⟨m.past ++ [.accepted (c, m.world.tickets)], m.world.handed c accepted⟩ := by
  have told : m.Goes ⟨m.past, m.world.tell (.span .handOff)⟩ := (Step.aside m _ _ _ _ _ _).goes
  refine told.trans (Step.contexts ?_).goes
  exact .accept (w := m.world.tell (.span .handOff)) hc h

section OffThread

variable {context accepted : Context Ticket}

/-- A peer that is asked from outside the toolkit thread leaves the reading to its context, and what
the reading comes to is what it is answered. -/
theorem Peer.query_off {p : PeerId} {peer : Peer} (read : Inquiry (Except Unavailable α))
    (hp : w.peers[p]? = some peer) (valid : peer.invalidated = false)
    (off : w.thread ≠ .toolkit peer.context) (hc : w.contexts[peer.context]? = some context)
    (h : context.accept w.tickets = .ok accepted) (fits : context.timeout.FitsClock w.clock) :
    ∃ next, query p read w = .calling peer.context w.tickets context.timeout
        (consult peer.table (Reading.ofLive read)) (w.handed peer.context accepted) next ∧
      ∀ {r later}, r ≠ .error .stalePeer → next (some (.ok (some r))) later = .done (.ok r) later := by
  obtain ⟨next, calling, answered, -⟩ :=
    handOff_calls none off (consult peer.table (Reading.ofLive read)) hc h fits
  obtain ⟨t, c, invalidated⟩ := peer
  cases valid
  rw [query_of_unlatched hp, Act.bind_apply, calling]
  refine ⟨_, rfl, fun {r later} there => ?_⟩
  have there : flatten (.ok (some r)) ≠ .error .stalePeer := there
  simp only [answered, Progress.bind, ofWork, settle_of_ne there]
  rfl

end OffThread

/-- An editable table that is there is asked on the thread that may touch it. -/
theorem consult_live {table : GridTable} (ht : w.table? t = some (.grid table))
    (opens : table.checkThread w.checksOn w.thread = .ok ()) (live : table.disposed = false)
    (read : Inquiry (Except Unavailable α)) :
    consult t (Reading.ofLive read) w = .done ((read.eval table.answer).map some) w := by
  have asked : (Reading.ofLive read).run w.checksOn w.thread (.grid table) =
      (read.eval table.answer, .grid table) := by
    rw [GridTable.run_eq opens]
    show (Inquiry.eval table.answer (if table.disposed = true then _ else _), _) = _
    rw [if_neg (by simp [live])]
  rw [consult_grid ht, asked]

/-- There a reading comes to its value. -/
theorem consult_run {table : GridTable} {read : Inquiry (Except Unavailable α)}
    {result : Except Unavailable α} (ht : w.table? t = some (.grid table))
    (opens : table.checkThread w.checksOn w.thread = .ok ()) (live : table.disposed = false)
    (reads : read.Reads table result) :
    consult t (Reading.ofLive read) w = .done (.ok (some result)) w := by
  rw [consult_live ht opens live, reads.value]
  rfl

theorem Bridge.query_eq {b : BridgeId} {bridge : Bridge} {tree : Tree} {id : NodeId}
    (hb : w.bridges[b]? = some bridge) (ht : w.trees[bridge.tree]? = some tree)
    (ha : tree.get? (.ofRaw id) = some a) (attr : Attribute) :
    query b id attr w = (a.answer attr (w.tell (.span .query))).bind fun value => (do
      Act.tell (.queryAnswered id a.role attr value)
      pure value) := by
  have found : (node? b id : Act μ _) (w.tell (.span .query)) =
      .done (.ok (some a)) (w.tell (.span .query)) := by
    have hb' : (w.tell (.span .query)).bridges[b]? = some bridge := hb
    have ht' : (w.tell (.span .query)).trees[bridge.tree]? = some tree := ht
    unfold node? getBridge getTree
    simp only [Act.bind_apply, Act.get_apply, Progress.bind, Act.pure_apply, hb', ht', ha]
  show (node? b id (w.tell (.span .query))).bind _ = _
  rw [found]
  rfl

/-! ### Answers -/

namespace Moment

/-- The thread of a context has begun a task, which has edited nothing yet. -/
structure Begins (s : Moment μ) (task : Task) : Prop where
  /-- The executing thread is at the task. -/
  current : s.world.task? = some task
  /-- The task has just begun. -/
  fresh : ∀ t, s.editsBy t task = []

/-- An editable table with some contents is there to be read by a context, whose tasks alone have
edited it. -/
structure Serves (s : Moment μ) (c : ContextId) (t : TableId) (g : Grid) : Prop where
  /-- It was neither dropped nor disposed of, and is bound to nothing else. -/
  there : ∃ owner, s.world.table? t = some (.grid ⟨g, owner, false⟩) ∧ ∀ c', owner = some c' → c' = c
  /-- Tasks of the context made its edits. -/
  authors : ∀ x ∈ s.edits t, ∃ k, x.1 = some (c, k)

theorem Serves.congr {g : Grid} (h : m.Serves c t g) (tables : m'.world.tables = m.world.tables)
    (edits : m'.edits t = m.edits t) : m'.Serves c t g := by
  refine ⟨?_, edits ▸ h.authors⟩
  unfold World.table?
  rw [tables]
  exact h.there

/-- The moment at which the thread of a context takes up the next task. -/
def atTask (m : Moment μ) (task : Task) : Moment μ :=
  ⟨m.past ++ [.began task], { m.world with
    contexts := m.world.contexts.modify task.1 Context.next, thread := .toolkit task.1 }⟩

theorem atTask_edits (m : Moment μ) (task : Task) (t : TableId) :
    (m.atTask task).edits t = m.edits t := by
  rw [edits_of_past (m := m) rfl]
  exact List.append_nil _

/-- Another thread goes on. -/
theorem goes_on (m : Moment μ) (thread : Thread) :
    m.Goes ⟨m.past, { m.world with thread := thread }⟩ :=
  (Step.aside m thread _ _ _ _ _).goes

/-- A context whose thread is free begins the task that waits first. -/
theorem Lived.begins {context : Context Ticket} {k : Ticket} {rest : List (Message Ticket)}
    (h : m.Lived) (hc : m.world.contexts[c]? = some context) (there : context.exited = false)
    (free : context.current = none) (first : context.queue = .run k :: rest) :
    m.Goes (m.atTask (c, k)) ∧ (m.atTask (c, k)).Begins (c, k) := by
  have next : context.next = { context with queue := rest, current := some k } := by
    simp [Context.next, there, free, first]
  have begins : context.beginning = [k] := by
    simp [Context.beginning, free, next]
  have waits : k ∉ m.begun c := by
    have once := (h.booked c).once
    rw [((h.booked c).ledger hc).order] at once
    intro mem
    exact (List.nodup_append.1 once).2.2 k mem k (by simp [Context.waiting, first, Message.task?]) rfl
  have took := (Step.contexts (.next hc)).goes
  rw [begins] at took
  refine ⟨took.trans (goes_on _ (.toolkit c)), ?_, fun t => ?_⟩
  · show ((m.world.contexts.modify c Context.next)[c]?.bind Context.current).map _ = _
    rw [List.getElem?_modify_eq, hc, Option.map_eq_map, Option.map_some, next]
    rfl
  · rw [editsBy, atTask_edits]
    exact (h.inTurn c t).editsBy_of_not_begun waits

/-- The tasks that a context had accepted by then have run, and no others, and some contents are what
they have made of the first ones, task after task. -/
structure Settled (m s : Moment μ) (c : ContextId) (t : TableId) (g : Grid) : Prop where
  /-- They have run, in order. -/
  ran : s.finished c = m.accepted c
  /-- The contents are theirs. -/
  contents : ∃ g₀, .created t g₀ ∈ s.past ∧
    g = g₀.after ((m.accepted c).flatMap fun k => s.editsBy t (c, k))

/-- A task finds the contents that the tasks accepted before it have left. -/
theorem Serves.settled {s : Moment μ} {k : Ticket} {g : Grid} (h : s.Lived)
    (serves : s.Serves c t g) (begins : s.Begins (c, k))
    (accepted : m.past ++ [.accepted (c, k)] <+: s.past) : m.Settled s c t g := by
  have ran := h.finished_eq_accepted begins.current accepted
  obtain ⟨owner, ht, -⟩ := serves.there
  obtain ⟨g₀, made, contents⟩ := h.filed.contents ht
  refine ⟨ran, g₀, made, ?_⟩
  rw [← ran, ← h.editsOf_eq begins.current (begins.fresh t), ← edits_eq_editsOf serves.authors]
  exact contents

/-- A table that is there to be read is not gone. -/
theorem Serves.not_lost {g : Grid} (h : m.Lived) (serves : m.Serves c t g) : ¬m.Lost t := by
  obtain ⟨owner, ht, -⟩ := serves.there
  rintro (⟨gone, -⟩ | found)
  · rw [gone] at ht
    cases ht
  · cases h.filed.disposed ht found

/-- A bridge is asked for a node from outside the thread of the context that reads the node's table;
the table is not gone, and the context takes the task. -/
structure Reaches (m : Moment μ) (b : BridgeId) (id : NodeId) (a : Adapter) (t : TableId)
    (c : ContextId) : Prop where
  /-- The node is in the tree of the bridge. -/
  node : ∃ bridge tree, m.world.bridges[b]? = some bridge ∧
    m.world.trees[bridge.tree]? = some tree ∧ tree.alive = true ∧
    tree.get? (.ofRaw id) = some a ∧ tree.context = c
  /-- Its peer refers to the table. -/
  table : ∃ peer, m.world.peers[a.peer]? = some peer ∧ peer.table = t
  /-- The table is not gone. -/
  there : ¬m.Lost t
  /-- The bridge is asked from outside. -/
  off : m.world.thread ≠ .toolkit c
  /-- The context has room, and the clock for its time. -/
  room : ∃ context accepted, m.world.contexts[c]? = some context ∧
    context.accept m.world.tickets = .ok accepted ∧ context.timeout.FitsClock m.world.clock

/-- The peer of a node that is reached is not invalidated, and refers to a table that is there. -/
theorem Reaches.peer {b : BridgeId} {id : NodeId} (h : m.Lived) (reaches : m.Reaches b id a t c) :
    m.world.peers[a.peer]? = some ⟨t, c, false⟩ ∧ (m.world.table? t).isSome := by
  obtain ⟨bridge, tree, -, ht, -, ha, context⟩ := reaches.node
  obtain ⟨⟨table, c', invalidated⟩, hp, rfl⟩ := reaches.table
  have here : a.tree = bridge.tree := (h.coherent ht).here ha
  obtain ⟨peer', hp', context'⟩ := h.referred.context (h.keyed.stored ht ha) (here ▸ ht)
  rw [hp] at hp'
  cases hp'
  obtain rfl : c' = c := context'.trans context
  cases invalidated with
  | true => exact absurd (h.referred.lost hp rfl) reaches.there
  | false =>
    refine ⟨hp, Option.isSome_iff_ne_none.2 fun gone => reaches.there (.inl ⟨gone, ?_⟩)⟩
    exact h.referred.known hp

theorem Reaches.asked {b : BridgeId} {id : NodeId} (h : m.Lived) (reaches : m.Reaches b id a t c) :
    a.Asked m.world := by
  obtain ⟨bridge, tree, -, ht, held, ha, -⟩ := reaches.node
  obtain ⟨hp, there⟩ := reaches.peer h
  have coherent := h.coherent ht
  have here : a.tree = bridge.tree := coherent.here ha
  have known := coherent.parent ha
  refine ⟨fun k isTable => ?_, fun k isTable => ?_, ⟨tree, here ▸ ht, here ▸ coherent⟩, ?_,
    ⟨_, hp, rfl, there⟩⟩
  · rcases known with ⟨-, own⟩ | ⟨p, -, isParent⟩
    · rw [isTable] at own
      exact (Identity.table.inj own).symm
    · exact absurd isTable isParent.ne_table
  · rcases known with ⟨none, -⟩ | ⟨p, -, isParent⟩
    · exact none
    · exact absurd isTable isParent.ne_table
  · rw [Adapter.tree?, here, ht]
    simp [held]

end Moment

/-- An act leaves one task to a context and waits for it. When the task begins as `serves` says, it is
over at once and has changed nothing; when the act then goes on as `back` says it is over at once, and
`post` holds of the moment at which the task began, the result and the world. -/
structure Act.HandsOver (act : Act μ α) (m : Moment μ) (c : ContextId) (serves back : Moment μ → Prop)
    (post : Moment μ → Except Panic α → World μ → Prop) : Prop where
  /-- So it goes. -/
  ends : ∃ (β : Type) (k : Ticket) (bound : Duration) (task : Act μ β) (handed : Moment μ)
    (next : Option (Except Panic β) → Act μ α),
    act m.world = .calling c k bound task handed.world next ∧ m.Goes handed ∧
    handed.past = m.past ++ [.accepted (c, k)] ∧
    ∀ s, handed.Goes s → s.Begins (c, k) → serves s →
      ∃ answer, task s.world = .done (.ok answer) s.world ∧
        ∀ later, s.Goes later → back later →
          ∃ result w', next (some (.ok answer)) later.world = .done result w' ∧ post s result w'

/-- A query from outside the toolkit thread is answered at once, in a way that goes with any contents,
or leaves one task to the context. If the table is there when the task begins, its contents are those
that all tasks accepted before the query have left, in order, and what is answered is what they say. -/
theorem queries_read_one_state (h : m.Lived) {b : BridgeId} {id : NodeId}
    (reaches : m.Reaches b id a t c) (attr : Attribute) :
    (∃ value w', Bridge.query b id attr m.world = .done (.ok value) w' ∧
      ∀ g, a.Answers g w' attr (.ok value)) ∨
    ∀ g, (Bridge.query b id attr).HandsOver m c (fun s => s.Serves c t g)
      (fun later => later.world.thread = m.world.thread ∧ (a.tree? later.world).isSome)
      fun s result w' => m.Settled s c t g ∧ a.Answers g w' attr result := by
  obtain ⟨bridge, tree, hb, ht, held, ha, -⟩ := reaches.node
  obtain ⟨context, accepted, hc, accepts, fits⟩ := reaches.room
  obtain ⟨hp, -⟩ := reaches.peer h
  have told : m.Goes ⟨m.past, m.world.tell (.span .query)⟩ := (Moment.Step.aside m _ _ _ _ _ _).goes
  have asked : a.Asked (m.world.tell (.span .query)) := by
    have asked := reaches.asked h
    exact ⟨asked.own, asked.root, asked.sound, asked.held, asked.there⟩
  have query := Bridge.query_eq hb ht ha attr
  cases asked.takes attr with
  | known run answers =>
    rw [run] at query
    exact .inl ⟨_, _, query, fun g => (answers g).of_trees rfl⟩
  | @reads α read f run answers =>
    obtain ⟨next, calling, answered⟩ := Peer.query_off (w := m.world.tell (.span .query)) read hp rfl
      reaches.off hc accepts fits
    rw [run, calling] at query
    have goes := told.trans (Moment.goes_handed (m := ⟨_, m.world.tell (.span .query)⟩) hc accepts)
    refine .inr fun g => ⟨_, _, _, _, ⟨_, (m.world.tell (.span .query)).handed c accepted⟩, _, query,
      goes, rfl, fun s after begins serves => ?_⟩
    have lived := h.goes (goes.trans after)
    obtain ⟨owner, table, bound⟩ := serves.there
    obtain ⟨result, reads, goesOn⟩ := answers _ (lived.filed.rectangular table)
    have opens : GridTable.checkThread ⟨g, owner, false⟩ s.world.checksOn s.world.thread = .ok () := by
      cases owner with
      | none => rfl
      | some c' =>
        rw [bound c' rfl]
        exact Affinity.check_eq_ok_iff.2 fun _ => World.thread_of_task? begins.current
    refine ⟨_, consult_run table opens rfl reads, ?_⟩
    rintro later after' ⟨_, held⟩
    have sound : later.world.Sound a.tree := by
      have lived' := lived.goes after'
      have made := (goes.trans (after.trans after')).remembers (h.keyed.stored ht ha)
      have planted := List.getElem?_eq_getElem (lived'.keyed.planted made)
      exact ⟨_, planted, lived'.coherent planted⟩
    obtain ⟨result, w', ends, shows⟩ := goesOn later.world sound held
    have settled := serves.settled (m := m) lived begins after.past
    simp only [Progress.bind, answered reads.there, ends]
    cases result with
    | ok value => exact ⟨_, _, rfl, settled, shows.of_trees rfl⟩
    | error p => exact ⟨_, _, rfl, settled, shows⟩

/-- So it is when the rows of a table are counted. -/
theorem queries_read_one_state_row_count :
    ∃ (m s : Moment Unit) (a : Adapter) (g : Grid) (w' : World Unit),
      m.Lived ∧ m.Reaches 0 a.key.toRaw a 0 0 ∧ m.Goes s ∧ s.Serves 0 0 g ∧ m.Settled s 0 0 g ∧
        (Bridge.query 0 a.key.toRaw .rowCount).Ends (fun _ _ => True) m.world (.ok (.count 1)) w' := by
  let g : Grid := ⟨"", [""], [[""]]⟩
  let a : Adapter := ⟨Arena.keyAt 0 1, .table (Arena.keyAt 0 1), none, 0, 0⟩
  let context : Context Ticket := .start .default
  let accepted : Context Ticket := { context with queue := [.run 0], pending := 1 }
  obtain ⟨m, lived, e, untouched⟩ := Moment.lived_of_cell () (.client 0)
  have served : m.Serves 0 0 g :=
    ⟨⟨none, by rw [e]; rfl, fun _ none => by cases none⟩, fun x hx => by rw [(untouched 0).1] at hx; cases hx⟩
  have fits : context.timeout.FitsClock m.world.clock := by
    rw [e]
    decide
  have reaches : m.Reaches 0 a.key.toRaw a 0 0 := by
    refine ⟨⟨⟨0, none⟩, _, by rw [e]; rfl, by rw [e]; rfl, rfl, ?_, rfl⟩, ⟨_, by rw [e]; rfl, rfl⟩,
      served.not_lost lived, by rw [e]; simp [World.attached], context, accepted, by rw [e]; rfl,
      by rw [e]; rfl, fits⟩
    rw [NodeKey.ofRaw_toRaw]
    rfl
  -- it stops once its context has taken the task, and nothing else was done
  obtain ⟨task₀, next₀, calls⟩ : ∃ (task : Act Unit (Option (Except Unavailable Nat))) (next : _ → Act Unit _),
      Bridge.query 0 a.key.toRaw .rowCount m.world = .calling 0 m.world.tickets context.timeout task
        ((m.world.tell (.span .query)).handed 0 accepted) next := by
    obtain ⟨bridge, tree, hb, ht, -, ha, -⟩ := reaches.node
    have hp : (m.world.tell (.span .query)).peers[0]? = some ⟨0, 0, false⟩ := by
      rw [e]
      rfl
    have hc : (m.world.tell (.span .query)).contexts[0]? = some context := by
      rw [e]
      rfl
    have accepts : context.accept (m.world.tell (.span .query)).tickets = .ok accepted := by
      rw [e]
      rfl
    obtain ⟨next, calling, -⟩ :=
      Peer.query_off Reading.rowCount hp rfl reaches.off hc accepts fits
    have answers : a.answer .rowCount (m.world.tell (.span .query)) =
        ((Peer.query 0 Reading.rowCount (m.world.tell (.span .query))).bind
          (a.degrade "row_count")).bind fun count => pure (.ofCount count) := rfl
    rw [Bridge.query_eq hb ht ha, answers, calling]
    exact ⟨_, _, rfl⟩
  rcases queries_read_one_state lived reaches .rowCount with ⟨value, w', run, -⟩ | handsOver
  · rw [calls] at run
    cases run
  obtain ⟨β, k, bound, task, handed, next, run, goes, past, answered⟩ := (handsOver g).ends
  rw [calls] at run
  have same : (m.world.tell (.span .query)).handed 0 accepted = handed.world := by
    injection run
  obtain rfl : k = 0 := by
    injection run with _ _ _ ticket
    rw [← ticket, e]
    rfl
  -- the thread of the context begins the task
  have taken : handed.world.contexts[0]? = some accepted := by
    rw [← same, e]
    rfl
  obtain ⟨later, begins⟩ := (lived.goes goes).begins taken rfl rfl rfl
  have edits : (handed.atTask (0, 0)).edits 0 = m.edits 0 := by
    rw [Moment.atTask_edits, Moment.edits_of_past past]
    exact List.append_nil _
  have serves : (handed.atTask (0, 0)).Serves 0 0 g :=
    served.congr (congrArg World.tables same).symm edits
  obtain ⟨answer, done, goesOn⟩ := answered _ later begins serves
  -- the caller goes on
  have back := (handed.atTask (0, 0)).goes_on (.client 0)
  obtain ⟨result, w', ends, settled, answers⟩ := goesOn _ back ⟨by rw [e]; rfl, by
    show ((handed.world.trees[0]?).filter Tree.alive).isSome
    rw [← same, e]
    rfl⟩
  cases answers with
  | plain =>
    refine ⟨m, _, a, g, w', lived, reaches, goes.trans later, serves, settled, ⟨?_⟩⟩
    rw [calls, run]
    exact ⟨_, _, trivial, by rw [ends]; exact ⟨rfl, rfl⟩⟩

end TableAccess
