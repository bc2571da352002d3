import TableAccess.Proofs.Strides

/-!
# Tasks that hand work over to their own context

A task may itself hand work over to the context that runs it, that work may do the same, and so on, and
on every level there may be a panic. None of this stops: on the thread of a context its work is done at
once, without the queue. A panic ends with the hand-off whose work it was. So a task comes to the same
and leaves the same behind whether it is handed over on the thread of its context, and done at once, or
by another thread, and done when its turn has come. Only the clock tells the two apart: another thread
has to wait, and panics if the clock cannot tell until when.

## The model

* `Estate` — what tasks share: all of the world but threads, contexts and what was told.
* `Act.Amounts` — on the thread of a context an act does not stop, and touches the estate only.
* `Job` — a task with all the work it hands over; `Job.act` — what it does; `Job.outcome` — what it comes to.
* `Job.amounts` — the one is the other.
* `Errand.DoneAs` — what becomes of a task that was called; `Errand.doneAs` — so it is if it amounts to
  an outcome.
* `hand_offs_agree` — the main statement.
-/

namespace TableAccess

variable {μ α β γ : Type} {c : ContextId}

/-! ### What tasks share -/

/-- What the tasks of a context can see and change, other than contexts. -/
structure Estate (μ : Type) where
  /-- Affinity checks are switched on. -/
  checksOn : Bool
  /-- The tables; one that was dropped is gone. -/
  tables : List (Option Table)
  /-- The peers. -/
  peers : List Peer
  /-- The trees. -/
  trees : List Tree
  /-- The bridges. -/
  bridges : List Bridge
  /-- What the users remember. -/
  memory : μ

namespace World

/-- The estate of a world. -/
def estate (w : World μ) : Estate μ := ⟨w.checksOn, w.tables, w.peers, w.trees, w.bridges, w.memory⟩

/-- The world with another estate, and something else told. -/
def settled (w : World μ) (e : Estate μ) (log : List (Thread × Event)) : World μ :=
  { w with
    checksOn := e.checksOn
    tables := e.tables
    peers := e.peers
    trees := e.trees
    bridges := e.bridges
    memory := e.memory
    log := log }

@[simp] theorem estate_tell (w : World μ) (e : Event) : (w.tell e).estate = w.estate := rfl

end World

/-! ### What an act amounts to -/

namespace Act

/-- Does something to the estate at once. -/
def touch (step : Estate μ → α × Estate μ) : Act μ α := fun w =>
  .done (.ok (step w.estate).1) (w.settled (step w.estate).2 w.log)

/-- On the thread of a context an act does not stop; what it comes to, and what it leaves of the estate,
depends on the estate alone, and all else is as it was. -/
structure Amounts (c : ContextId) (act : Act μ α)
    (outcome : Estate μ → Except Panic α × Estate μ) : Prop where
  /-- Whatever is with the context. -/
  runs : ∀ {w : World μ}, w.thread = .toolkit c → (∃ context, w.contexts[c]? = some context) →
    ∃ log, act w = .done (outcome w.estate).1 (w.settled (outcome w.estate).2 log)

namespace Amounts

theorem pure (a : α) : (pure a : Act μ α).Amounts c fun e => (.ok a, e) :=
  ⟨fun {w} _ _ => ⟨w.log, rfl⟩⟩

theorem throw (p : Panic) : (throw p : Act μ α).Amounts c fun e => (.error p, e) :=
  ⟨fun {w} _ _ => ⟨w.log, rfl⟩⟩

/-- Something is done to the estate first. -/
theorem touch {step : Estate μ → β × Estate μ} {rest : β → Act μ α}
    {outcome : β → Estate μ → Except Panic α × Estate μ} (h : ∀ b, (rest b).Amounts c (outcome b)) :
    (Act.touch step >>= rest).Amounts c fun e => outcome (step e).1 (step e).2 :=
  ⟨fun {w} here there => (h (step w.estate).1).runs (w := w.settled (step w.estate).2 w.log) here there⟩

theorem tell {e : Event} {rest : Unit → Act μ α} {outcome : Estate μ → Except Panic α × Estate μ}
    (h : (rest ()).Amounts c outcome) : (Act.tell e >>= rest).Amounts c outcome :=
  ⟨fun {w} here there => h.runs (w := w.tell e) here there⟩

/-- Work that is handed over to the context itself is done at once, and a panic ends with it. -/
theorem handOff (bound : Option Duration) {work : Act μ β} {rest : Except Unavailable β → Act μ α}
    {outcome : Estate μ → Except Panic β × Estate μ}
    {outcome' : Except Unavailable β → Estate μ → Except Panic α × Estate μ}
    (h : work.Amounts c outcome) (h' : ∀ r, (rest r).Amounts c (outcome' r)) :
    (TableAccess.handOff c bound work >>= rest).Amounts c
      fun e => outcome' (ofWork (outcome e).1) (outcome e).2 := by
  refine ⟨fun {w} here ⟨context, hc⟩ => ?_⟩
  obtain ⟨log, done⟩ := h.runs (w := w.tell (.span .handOff)) here ⟨context, hc⟩
  rw [bind_apply, handOff_of_here bound work here hc]
  unfold runInline
  rw [bind_apply, attempt, done]
  simp only [World.estate_tell]
  cases (outcome w.estate).1 with
  | ok b => exact (h' (.ok b)).runs (w := w.settled (outcome w.estate).2 log) here ⟨context, hc⟩
  | error p =>
    exact (h' (.error .handOffPanicked)).runs
      (w := (w.settled (outcome w.estate).2 log).tell (.inlineTaskPanicked context.name)) here
      ⟨context, hc⟩

end Amounts

end Act

/-! ### Jobs -/

/-- A task with all the work that it hands over to its own context, on as many levels as there are. -/
inductive Job (μ : Type) : Type → Type 1 where
  /-- It is over, with a value. -/
  | returns {α : Type} (a : α) : Job μ α
  /-- It panics. -/
  | panics {α : Type} (p : Panic) : Job μ α
  /-- It does something to the estate, and goes on. -/
  | does {α β : Type} (step : Estate μ → β × Estate μ) (next : β → Job μ α) : Job μ α
  /-- It tells something, and goes on. -/
  | tells {α : Type} (e : Event) (next : Job μ α) : Job μ α
  /-- It hands work over, waits for what that comes to, at most for a bound, and goes on. -/
  | handsOver {α β : Type} (bound : Option Duration) (work : Job μ β)
      (next : Except Unavailable β → Job μ α) : Job μ α

namespace Job

/-- What a task of a context does. -/
def act (c : ContextId) {α : Type} : Job μ α → Act μ α
  | .returns a => pure a
  | .panics p => throw p
  | .does step next => do (next (← Act.touch step)).act c
  | .tells e next => do
    Act.tell e
    next.act c
  | .handsOver bound work next => do (next (← handOff c bound (work.act c))).act c

/-- What a task comes to, and what it leaves of the estate. Of a panic in work that it has handed over it
gets to know that there was one. -/
def outcome {α : Type} : Job μ α → Estate μ → Except Panic α × Estate μ
  | .returns a, e => (.ok a, e)
  | .panics p, e => (.error p, e)
  | .does step next, e => (next (step e).1).outcome (step e).2
  | .tells _ next, e => next.outcome e
  | .handsOver _ work next, e => (next (ofWork (work.outcome e).1)).outcome (work.outcome e).2

/-- On the thread of its context a task comes to its outcome, however deep the work is that it hands
over. -/
theorem amounts (job : Job μ α) : (job.act c).Amounts c job.outcome := by
  induction job with
  | returns a => exact .pure a
  | panics p => exact .throw p
  | does step next ih => exact .touch ih
  | tells e next ih => exact .tell ih
  | handsOver bound work next ihWork ih => exact .handOff bound ihWork ih

/-- A panic is known only to whoever has handed over the work, and that one goes on. -/
theorem outcome_of_panic {work : Job μ β} {e : Estate μ} {p : Panic}
    (panics : (work.outcome e).1 = .error p) (bound : Option Duration)
    (next : Except Unavailable β → Job μ α) :
    (handsOver bound work next).outcome e =
      (next (.error .handOffPanicked)).outcome (work.outcome e).2 := by
  rw [outcome, panics, ofWork]

/-- No task does anything to contexts but to hand work over. -/
theorem regular (job : Job μ α) :
    (job.act c).Keeps (Conduct.regular : Conduct μ) (fun _ => True) fun _ => True := by
  induction job with
  | returns a => exact .pure trivial
  | panics p => exact .throw trivial
  | does step next ih =>
    refine ⟨fun {w₀ w} along => .of_eq ((ih (step w.estate).1).keeps (w := w.settled _ w.log) ?_) rfl⟩
    exact ⟨along.thread, { along.leaves with }⟩
  | tells e next ih =>
    refine ⟨fun along => .tell (ih.keeps ?_)⟩
    exact ⟨along.thread, { along.leaves with }⟩
  | handsOver bound work next ihWork ih =>
    exact (Act.Keeps.handOff Conduct.regular_plain ihWork trivial).bind fun r _ => ih r

end Job

/-! ### Tasks that were called and do not stop -/

/-- What becomes of a task from the time on at which it was called. Before that the context had `pending`
tasks. -/
structure Errand.DoneAs (errand : Errand μ) (outcome : Estate μ → Except Panic errand.β × Estate μ)
    (pending : Nat) (s₁ : Timeline μ) : Prop where
  /-- The caller is told what it should be. -/
  followed : errand.Followed s₁
  /-- At every time nothing of the task was done, or it was done as a whole, in one turn; -/
  once : ∀ {s : Timeline μ}, s₁.Reaches s → errand.Whole s ∨
    ∃ s₂, s₁.Reaches s₂ ∧ errand.Begins s₂ ∧ (s₂.works (errand.strand errand.task)).Reaches s
  /-- it is not done again. -/
  never : ∀ {s s' : Timeline μ}, s₁.Reaches s → errand.Begins s →
    (s.works (errand.strand errand.task)).Reaches s' → ¬errand.Begins s'
  /-- It can be begun as soon as it waits first and nobody is working. -/
  begins : ∀ {s : Timeline μ} {context : Context Ticket} {rest : List (Message Ticket)},
    s₁.Reaches s → errand.Whole s → s.running = none →
    s.world.contexts[errand.context]? = some context → context.current = none →
    context.queue = .run errand.ticket :: rest →
    s.Turn (s.serves errand.context) ∧ errand.Begins (s.serves errand.context)
  /-- In the turn in which it is done it comes to its outcome and leaves that of the estate; the caller,
  if it still waits, can go on with it; and the context goes on serving. -/
  ends : ∀ {s : Timeline μ}, s₁.Reaches s → errand.Begins s → ∃ log context,
    errand.Ends (outcome s.world.estate).1
      (({ s.world with thread := .toolkit errand.context } : World μ).settled
        (outcome s.world.estate).2 log) s (s.works (errand.strand errand.task)) ∧
    s.world.contexts[errand.context]? = some context ∧
    (s.works (errand.strand errand.task)).Freed errand.context context context.finish
  /-- When one task more was finished since than was accepted, as many are pending as were before. -/
  back : ∀ {s : Timeline μ} {context : Context Ticket}, s₁.Reaches s →
    s.world.contexts[errand.context]? = some context →
    (s.moment.finished errand.context).length + (s₁.moment.accepted errand.context).length =
      (s.moment.accepted errand.context).length +
        (s₁.moment.finished errand.context).length + 1 →
    context.pending = pending

/-- What is pending was accepted and is not finished. -/
theorem Context.Ledger.balance {τ : Type} {context : Context τ} {accepted begun finished : List τ}
    (h : context.Ledger accepted begun finished) :
    context.pending + finished.length = accepted.length := by
  rw [h.pending, h.order, h.busy, List.length_append, List.length_append]
  omega

/-- A task that amounts to an outcome is done as it should be. -/
theorem Errand.doneAs {s₁ : Timeline μ} {errand : Errand μ}
    {outcome : Estate μ → Except Panic errand.β × Estate μ} (h : s₁.Lived)
    (called : errand ∈ s₁.errands) (waits : errand.sleeper ∈ s₁.asleep) (whole : errand.Whole s₁)
    (amounts : errand.task.Amounts errand.context outcome) {context : Context Ticket}
    (hc : s₁.world.contexts[errand.context]? = some context) :
    errand.DoneAs outcome (context.pending - 1) s₁ := by
  have followed := Errand.followed h called waits
  have orderly : ∀ {s}, s₁.Reaches s → s.Orderly ∧ errand ∈ s.errands := fun later =>
    ⟨(h.reaches later).orderly, later.errands.subset called⟩
  have done : ∀ {s}, s₁.Reaches s → errand.Begins s → ∃ log,
      errand.task { s.world with thread := .toolkit errand.context } =
        .done (outcome s.world.estate).1
          (({ s.world with thread := .toolkit errand.context } : World μ).settled
            (outcome s.world.estate).2 log) := fun {s} later begins =>
    amounts.runs (w := { s.world with thread := .toolkit errand.context }) rfl begins.context
  have pending : context.pending + (s₁.moment.finished errand.context).length =
      (s₁.moment.accepted errand.context).length := ((h.orderly.booked _).ledger hc).balance
  refine ⟨followed, fun later => whole.reaches h.orderly later, fun {s s'} later begins after again => ?_,
    fun {s context rest} later whole free there idle queue => ?_, fun {s} later begins => ?_,
    fun {s context'} later there one => ?_⟩
  · obtain ⟨log, done⟩ := done later begins
    have ends := begins.ends (orderly later).1 (orderly later).2 done
    refine (after.orderly (orderly (later.trans (Timeline.Turn.works begins.running).reaches)).1).unfinished
      again.busy ((after.past.filterMap _).subset ?_)
    rw [ends.past, List.filterMap_append]
    exact List.mem_append_right _ (by simp [Deed.finished?])
  · have ledger := ((orderly later).1.booked _).ledger there
    have stays : context.exited = false := by
      by_contra gone
      cases queue.symm.trans (ledger.gone (by simpa using gone)).2.1
    have turn := Timeline.serves_first free there idle stays queue
    refine ⟨turn.1, ?_⟩
    cases whole with
    | left mem =>
      exact begins_of_left (orderly later).1 mem there idle (by simp [Context.next, idle, stays, queue])
    | ready busy => cases idle.symm.trans ((World.current_of_getElem? there).symm.trans busy)
    | begins begins => cases idle.symm.trans ((World.current_of_getElem? there).symm.trans begins.busy)
  · obtain ⟨log, done⟩ := done later begins
    obtain ⟨context, hc, freed⟩ := (h.reaches later).freed begins.running done
    exact ⟨log, context, begins.ends (orderly later).1 (orderly later).2 done, hc, freed⟩
  · have balance := (((orderly later).1.booked _).ledger there).balance
    omega

/-! ### The two ways agree -/

namespace Job

/-- Handed over on the thread of its context a task is done at once, whether the context takes tasks or
not: the caller does not stop and is told what the task came to; the queue and the count of the context
are as they were. -/
def DoneAtOnce (c : ContextId) (job : Job μ γ) : Prop :=
  ∀ {w : World μ} {context : Context Ticket} (bound : Option Duration),
    w.thread = .toolkit c → w.contexts[c]? = some context →
    ∃ log, handOff c bound (job.act c) w =
      .done (.ok (ofWork (job.outcome w.estate).1)) (w.settled (job.outcome w.estate).2 log)

/-- Handed over by another thread to a context that takes it a task is done in its turn, and the caller,
if it still waits then, is told what the task came to. If the clock cannot tell how long the caller would
have to wait, the caller panics, and the task stays. -/
def DoneInTurn (c : ContextId) (job : Job μ γ) : Prop :=
  ∀ {β : Type} {s : Timeline μ} {w : World μ} {context : Context Ticket} {t : Duration}
    {thread : Thread} {work : Act μ β} {caller : Except Panic β → Option (Strand μ)}
    {rest : Except Panic (Except Unavailable γ) → Act μ β},
    s.Lived → s.running = some (.mk thread work caller) → w.thread ≠ .toolkit c →
    w.contexts[c]? = some context → context.running = true → context.HasRoom →
    work { s.world with thread := thread } =
      ((handOff c (some t) (job.act c)).attempt >>= rest) w →
    (t.FitsClock s.world.clock → ∃ next : Option (Except Panic γ) → Act μ β,
      (∀ result, next (some result) = rest (.ok (ofWork result))) ∧
      (⟨c, w.tickets, job.act c, thread, next, caller, s.world.after t⟩ : Errand μ).DoneAs
        job.outcome context.pending (s.works (.mk thread work caller))) ∧
    (¬t.FitsClock s.world.clock → ∃ w', work { s.world with thread := thread } =
      .leaving c w.tickets (job.act c >>= fun _ => pure () : Act μ Unit) w'
        (rest (.error deadlineOverflow)))

theorem doneAtOnce (job : Job μ γ) : job.DoneAtOnce c := by
  intro w context bound here hc
  have handed := (Act.Amounts.handOff bound (job.amounts (c := c)) fun r => .pure r).runs
    here ⟨context, hc⟩
  rwa [bind_pure] at handed

theorem doneInTurn (job : Job μ γ) : job.DoneInTurn c := by
  intro β s w context t thread work caller rest h running off hc runs room comes
  have accepts := Context.accept_of_running runs w.tickets
  rw [if_pos room] at accepts
  obtain ⟨accepted, ok⟩ := accepts
  have clock := h.clock_of_accepted running off hc ok comes
  rw [Act.bind_apply, Act.attempt] at comes
  refine ⟨fun fits => ?_, fun late => ⟨w.handed c accepted, ?_⟩⟩
  · obtain ⟨next, calls, answered, -⟩ := handOff_calls (some t) off (job.act c) hc ok (clock ▸ fits)
    rw [calls] at comes
    refine ⟨fun answer later => (next answer later).attempt.bind rest, fun result => ?_, ?_⟩
    · funext later
      show (next (some result) later).attempt.bind rest = _
      rw [answered]
      rfl
    · have lived := h.reaches (Timeline.Turn.works running).reaches
      have there : (s.works (.mk thread work caller)).world.contexts[c]? = some accepted := by
        rw [Timeline.works_mk, comes]
        simp [Schedule.take, Progress.attempt, Progress.bind, World.handed, World.modifyContext,
          World.tell, hc]
      have last : ∀ {δ : Type 1} (l : List δ) (x : δ), x ∈ l ++ [x] := fun l x =>
        List.mem_append_right l (List.mem_singleton_self x)
      have count : accepted.pending - 1 = context.pending := by
        rw [(Context.accept_eq_ok ok).2]
        rfl
      have deadline : (w.handed c accepted).after t = s.world.after t := congrArg (· + t.nanos) clock
      rw [← count, ← deadline]
      refine Errand.doneAs lived ?_ ?_ (.left ?_) job.amounts there
      all_goals
        rw [Timeline.works_mk, comes]
        exact last _ _
  · rw [comes, handOff_overruns (some t) off (job.act c) hc ok (clock ▸ late)]
    rfl

end Job

/-- **The inline way and the queued way agree.** Take any task, with all the work that it hands over to
its own context on whatever level, and a panic wherever there is one. If it is handed over on the thread
of the context, it is done at once, even if the queue is full, and nothing happens to the context. If it
is handed over by another thread, it is done once, as a whole, when its turn has come; after that the
context goes on serving, with as many tasks pending as before. Both times it comes to its outcome, which
the caller is told, and leaves the same of the estate. A panic in work that it has handed over it is told
of, and goes on. -/
theorem hand_offs_agree (c : ContextId) (job : Job μ γ) :
    job.DoneAtOnce c ∧ job.DoneInTurn c ∧
    ∀ {α : Type} {e : Estate μ} {p : Panic}, (job.outcome e).1 = .error p →
      ∀ (bound : Option Duration) (next : Except Unavailable γ → Job μ α),
        (Job.handsOver bound job next).outcome e =
          (next (.error .handOffPanicked)).outcome (job.outcome e).2 :=
  ⟨job.doneAtOnce, job.doneInTurn, fun panics bound next => Job.outcome_of_panic panics bound next⟩

/-- Counts one. -/
def Estate.count (e : Estate Nat) : Unit × Estate Nat := ((), { e with memory := e.memory + 1 })

/-- Hands over work that hands over work that panics, and panics then itself. -/
def nestedPanics : Job Nat Bool :=
  .handsOver none
    (.handsOver none (.panics ⟨"inner"⟩ : Job Nat Unit) fun r => .does Estate.count fun _ =>
      match r with
      | .ok _ => .returns ()
      | .error _ => .panics ⟨"outer"⟩)
    fun r => .does Estate.count fun _ =>
      match r with
      | .error .handOffPanicked => .returns true
      | _ => .returns false

/-- Starts a context and hands that task over to it. -/
def handOffNested : Act Nat Unit := do
  modify fun w => { w with contexts := w.contexts ++ [.start .default] }
  let _ ← handOff 0 (some ⟨1⟩) (nestedPanics.act 0)

theorem handOffNested_keeps :
    (Strand.mk (.client 0) handOffNested fun _ => none).Keeps .regular := by
  refine Strand.regular_of_spawn Context.spawn_default ?_
  exact (Act.Keeps.handOff Conduct.regular_plain nestedPanics.regular trivial).bind fun _ _ => .pure trivial

/-- It comes to the same at once on a thread whose queue has no room, and in its turn after a call. -/
theorem hand_offs_agree_nested :
    (∃ (w w' : World Nat) (context : Context Ticket), w.contexts = [context] ∧ ¬context.HasRoom ∧
      handOff 0 (some ⟨0⟩) (nestedPanics.act 0) w = .done (.ok (.ok true)) w' ∧
      w'.memory = 2 ∧ w'.contexts = w.contexts) ∧
    ∃ next : Option (Except Panic Bool) → Act Nat Unit, next (some (.ok true)) = pure () ∧
      (⟨0, 0, nestedPanics.act 0, .client 0, next, fun _ => none, 1⟩ : Errand Nat).DoneAs
        nestedPanics.outcome 0
        ((Timeline.start 0 handOffNested).works (.mk (.client 0) handOffNested fun _ => none)) := by
  constructor
  · let context : Context Ticket :=
      { Context.start .default with capacity := 1, queue := [.run 0], pending := 1 }
    let w : World Nat := { World.empty 0 with thread := .toolkit 0, contexts := [context] }
    obtain ⟨log, done⟩ := (hand_offs_agree 0 nestedPanics).1 (w := w) (some ⟨0⟩) rfl rfl
    exact ⟨w, _, context, rfl, by decide, done, rfl, rfl⟩
  · have lived : (Timeline.start 0 handOffNested).Lived := ⟨_, _, handOffNested_keeps, .refl _⟩
    have comes : handOffNested { (Timeline.start 0 handOffNested).world with thread := .client 0 } =
        ((handOff 0 (some ⟨1⟩) (nestedPanics.act 0)).attempt >>= Act.orPanic fun _ => pure ())
          { World.empty 0 with contexts := [.start .default] } := by
      unfold handOffNested
      rw [Act.modify_bind, Act.bind_eq_attempt]
      rfl
    obtain ⟨next, answered, done⟩ := ((hand_offs_agree 0 nestedPanics).2.1 lived rfl
      (by simp [World.empty]) rfl rfl (by decide) comes).1 (by decide)
    exact ⟨next, answered (.ok true), done⟩

/-- With a bound that the clock cannot tell the two ways differ, though the task just returns a value
and the context runs and has room: on the thread of the context the caller is told the value, and on
another thread it panics. -/
theorem ways_differ_beyond_clock :
    let w : World Nat := { World.empty 0 with contexts := [.start .default] }
    let task : Job Nat Nat := .returns 7
    let bound : Duration := .ofSeconds 0x8000000000000000
    (∃ w', handOff 0 (some bound) (task.act 0) { w with thread := .toolkit 0 } =
      .done (.ok (.ok 7)) w') ∧
    ∃ left w', handOff 0 (some bound) (task.act 0) { w with thread := .client 0 } =
      .leaving 0 0 left w' fun later => .done (.error deadlineOverflow) later := by
  refine ⟨⟨_, rfl⟩, _, _, handOff_overruns _ ?_ _ rfl rfl ?_⟩
  · exact Thread.noConfusion
  · decide

end TableAccess
