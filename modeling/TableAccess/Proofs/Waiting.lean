import TableAccess.Proofs.Accounting

/-!
# Waiting for the end of a context

Whoever waits for the exit of a context's thread waits at most for a bound. As long as there is time a
yes means what it says: the context was stopped, and all that it ever accepted is finished. But when
the time is over the answer is yes already if the context was only stopped, whatever is left to do;
it is no only while the context still runs.

## The model

* `awaitExit` — the wait; `Session.awaitEnd_eq` — a session waits in no other way.
* `Sleeper.GoesOn` — a thread that waits goes on; `Turn.waits_or_goesOn` — so or not at all.
* `Moment.Concluded` — a context was stopped and has finished what it accepted.
* `Timeline.Tells` — what an answer tells.
* `yes_means_over_or_late` — the main statement.
-/

namespace TableAccess

variable {μ α β : Type} {s s' : Timeline μ} {c : ContextId} {w w' : World μ}

/-- The thread of a context is gone. -/
def World.hasExited (c : ContextId) (w : World μ) : Bool := (w.contexts[c]?).any Context.exited

/-- Waits for the exit of the thread of a context, at most for a bound; yields whether the thread is
gone, or the context was stopped at least. There is nothing to wait for when it is over already. -/
def awaitExit (c : ContextId) (bound : Duration) : Act μ (Option Bool) := do
  match (← get).contexts[c]? with
  | none => pure none
  | some context =>
    if context.isOver then pure (some true)
    else
      let gone ← Act.await (World.hasExited c) (some bound)
      return ((← get).contexts[c]?).map fun context => gone || !context.running

/-- The answer of a session to such a wait. -/
def Session.toldOfExit : Option Bool → Session.Work Session.Answer
  | none => Session.complain .noContext
  | some answer => pure (.flag answer)

/-- A session waits in no other way, once it has waited for the tasks. -/
theorem Session.awaitEnd_eq (c : ContextId) (millis : Nat) :
    Session.awaitEnd c millis = (do
      Session.awaitIdle c
      Session.toldOfExit (← Session.act (awaitExit c (.ofMillis millis)))) := by
  have got : ∀ {β : Type} (f : World Desk → Work β), (get >>= f : Work β) = act get >>= f :=
    fun _ => rfl
  unfold awaitEnd awaitExit contextAt
  rw [act_bind]
  simp only [got, bind_assoc]
  congr 1; funext _
  congr 1; funext w
  cases w.contexts[c]? with
  | none => rfl
  | some context =>
    simp only [orComplain, pure_bind]
    split
    · rfl
    · simp only [act_bind, bind_assoc]
      congr 1; funext gone
      congr 1; funext w
      cases w.contexts[c]? with
      | none => rfl
      | some context => rfl

/-! ### Time goes by -/

namespace Timeline

/-- A thread that works leaves the clock as it is. -/
theorem Orderly.clock_works (h : s.Orderly) {strand : Strand μ} (running : s.running = some strand) :
    (s.works strand).world.clock = s.world.clock := by
  obtain ⟨w, tends, -, still⟩ := h.tends_works running
  exact still.trans tends.clock

/-- The clock does not go back. -/
theorem Turn.clock (turn : s.Turn s') (h : s.Orderly) : s.world.clock ≤ s'.world.clock := by
  cases turn with
  | works running => exact Nat.le_of_eq (h.clock_works running).symm
  | @serves c context free hc due =>
    have world : (s.serves c).world = s.world.modifyContext c Context.next :=
      s.toSchedule.serve_world c
    rw [world]
    exact Nat.le_refl _
  | passes later => exact later
  | _ => exact Nat.le_refl _

theorem Reaches.clock (later : s.Reaches s') (h : s.Orderly) : s.world.clock ≤ s'.world.clock := by
  refine (later.keeps (P := fun s' => s'.Orderly ∧ s.world.clock ≤ s'.world.clock)
    ⟨h, Nat.le_refl _⟩ ?_).2
  exact fun turn before => ⟨turn.orderly before.1, Nat.le_trans before.2 (turn.clock before.1)⟩

end Timeline

/-! ### Who waits goes on -/

/-- A thread that waits goes on, with whether what it waited for holds: it does, or the thread has
waited long enough. -/
inductive Sleeper.GoesOn (z : Sleeper μ) : Bool → Timeline μ → Timeline μ → Prop where
  /-- What it waited for holds. -/
  | held {s : Timeline μ} {before after : List (Sleeper μ)} (free : s.running = none)
      (asleep : s.asleep = before ++ z :: after) (holds : z.holds s.world = true) :
    GoesOn z true s { s with running := some (z.next true), asleep := before ++ after }
  /-- It has waited long enough. -/
  | late {s : Timeline μ} {before after : List (Sleeper μ)} (free : s.running = none)
      (asleep : s.asleep = before ++ z :: after)
      (due : ∀ deadline, z.deadline = some deadline → deadline ≤ s.world.clock) :
    GoesOn z false s { s with running := some (z.next false), asleep := before ++ after }

/-- An answer wakes nobody that waits for no task. -/
theorem Agenda.mem_asleep_answer_of_ticketless {a : Agenda μ} {z : Sleeper μ} (mem : z ∈ a.asleep)
    (none : z.ticket = none) (ticket : Option Ticket) (caller : Option (Strand μ)) :
    z ∈ (a.answer ticket caller).asleep := by
  cases ticket with
  | some k => exact mem_asleep_answer mem (by simp [none]) caller
  | none =>
    have nobody : (a.asleep.any fun z => z.ticket.isSome && z.ticket == Option.none) = false := by
      rw [List.any_eq_false]
      intro z _
      cases z.ticket <;> simp
    unfold answer
    rw [nobody]
    cases caller <;> exact mem

theorem Sleeper.GoesOn.turn {z : Sleeper μ} {b : Bool} (h : z.GoesOn b s s') : s.Turn s' := by
  cases h with
  | held free asleep holds => exact .wakes free asleep holds
  | late free asleep due => exact .givesUp free asleep due

namespace Timeline

/-- A turn leaves a thread that waits for no task asleep, or it is the one that goes on. -/
theorem Turn.waits_or_goesOn (turn : s.Turn s') {z : Sleeper μ} (asleep : z ∈ s.asleep)
    (own : z.ticket = none) : z ∈ s'.asleep ∨ ∃ b, z.GoesOn b s s' := by
  -- one sleeper goes on, and it is this one or this one stays
  have among : ∀ {z' : Sleeper μ} {before after : List (Sleeper μ)},
      s.asleep = before ++ z' :: after → z = z' ∨ z ∈ before ++ after := by
    intro z' before after split
    rw [split, List.mem_append, List.mem_cons] at asleep
    rcases asleep with earlier | same | later
    · exact .inr (List.mem_append_left _ earlier)
    · exact .inl same
    · exact .inr (List.mem_append_right _ later)
  cases turn with
  | @works strand running =>
    left
    obtain ⟨thread, work, caller⟩ := strand
    rw [works_mk]
    cases work { s.world with thread := thread } with
    | done result w =>
      cases thread with
      | client n => exact asleep
      | toolkit c =>
        exact Agenda.mem_asleep_answer_of_ticketless (a := { s.toAgenda with running := none }) asleep
          own _ _
    | awaiting | calling => exact List.mem_append_left _ asleep
    | leaving | starting => exact asleep
  | yields | resumes | passes => exact .inl asleep
  | @serves c context free hc due => exact .inl ((s.toSchedule.serve_asleep c).symm ▸ asleep)
  | @wakes z' before after free split holds =>
    rcases among split with rfl | stays
    · exact .inr ⟨true, .held free split holds⟩
    · exact .inl stays
  | @givesUp z' before after free split due =>
    rcases among split with rfl | stays
    · exact .inr ⟨false, .late free split due⟩
    · exact .inl stays

end Timeline

/-! ### What an answer tells -/

/-- A context was stopped, and what it ever accepted is finished. -/
structure Moment.Concluded (m : Moment μ) (c : ContextId) : Prop where
  /-- It takes no further tasks, and none is pending. -/
  isOver : ∃ context, m.world.contexts[c]? = some context ∧ context.running = false ∧
    context.pending = 0
  /-- The tasks that are finished are those that it accepted. -/
  finished : m.finished c = m.accepted c

namespace Moment

variable {m : Moment μ} {context : Context Ticket}

/-- When nothing is pending, what was accepted is finished. -/
theorem Booked.finished_of_pending (h : m.Booked c) (hc : m.world.contexts[c]? = some context)
    (pending : context.pending = 0) : m.finished c = m.accepted c := by
  have ledger := h.ledger hc
  have counted := ledger.pending
  rw [pending] at counted
  have waits : context.waiting = [] := List.eq_nil_of_length_eq_zero (by omega)
  have busy : context.current.toList = [] := List.eq_nil_of_length_eq_zero (by omega)
  rw [ledger.order, ledger.busy, waits, busy]
  simp

/-- A context that is over is concluded, -/
theorem Booked.concluded_of_isOver (h : m.Booked c) (hc : m.world.contexts[c]? = some context)
    (over' : context.isOver = true) : m.Concluded c := by
  obtain ⟨stopped, pending⟩ : context.running = false ∧ context.pending = 0 := by
    simpa [Context.isOver] using over'
  exact ⟨⟨context, hc, stopped, pending⟩, h.finished_of_pending hc pending⟩

/-- and so is one whose thread is gone. -/
theorem Booked.concluded_of_exited (h : m.Booked c) (hc : m.world.contexts[c]? = some context)
    (gone : context.exited = true) : m.Concluded c := by
  have ledger := h.ledger hc
  obtain ⟨finished, pending⟩ := ledger.done gone
  exact ⟨⟨context, hc, (ledger.gone gone).1, pending⟩, finished⟩

end Moment

/-- What the answer to a wait for the end of a context tells at some time. -/
inductive Timeline.Tells (s : Timeline μ) (c : ContextId) (deadline : Instant) : Bool → Prop where
  /-- A yes tells that all is done, -/
  | concluded (done : s.moment.Concluded c) : Tells s c deadline true
  /-- or only that the context was stopped, when the time is over. -/
  | stopped {context : Context Ticket} (late : deadline ≤ s.world.clock)
      (hc : s.world.contexts[c]? = some context) (stopped : context.running = false) :
    Tells s c deadline true
  /-- A no tells that the context still runs when the time is over. -/
  | runs {context : Context Ticket} (late : deadline ≤ s.world.clock)
      (hc : s.world.contexts[c]? = some context) (runs : context.running = true) :
    Tells s c deadline false

/-- How the wait for the end of a context goes on, with whether its thread is gone. -/
def awaitedExit (c : ContextId) (rest : Option Bool → Act μ β) (gone : Bool) : Act μ β := fun w =>
  rest ((w.contexts[c]?).map fun context => gone || !context.running) w

/-- There is nothing to wait for, or the thread waits. -/
theorem awaitExit_run {context : Context Ticket} (hc : w.contexts[c]? = some context)
    (bound : Duration) (rest : Option Bool → Act μ β) :
    (awaitExit c bound >>= rest) w =
      if context.isOver then rest (some true) w
      else .awaiting (World.hasExited c) (some bound) w (awaitedExit c rest) := by
  unfold awaitExit
  rw [Act.bind_apply, Act.bind_apply, Act.get_apply]
  simp only [Progress.bind, hc]
  split <;> rfl

/-- A thread while it waits for the end of a context. -/
def exitWaiter (c : ContextId) (deadline : Instant) (thread : Thread) (rest : Option Bool → Act μ β)
    (caller : Except Panic β → Option (Strand μ)) : Sleeper μ :=
  ⟨none, World.hasExited c, some deadline, fun gone => .mk thread (awaitedExit c rest gone) caller⟩

section Waiter

variable {thread : Thread} {rest : Option Bool → Act μ β}
  {caller : Except Panic β → Option (Strand μ)} {deadline : Instant}

/-- What the answer tells that a thread gets which waited for the end of a context. -/
theorem Timeline.Reaches.tells {s₁ s₂ s₃ : Timeline μ} {gone : Bool} (h : s.Orderly)
    (before : s.Reaches s₁) (goes : (exitWaiter c deadline thread rest caller).GoesOn gone s₁ s₂)
    (after : s₂.Reaches s₃) {context : Context Ticket} (hc : s₃.world.contexts[c]? = some context) :
    s₃.Tells c deadline (gone || !context.running) := by
  have orderly : ∀ {s s' : Timeline μ}, s.Orderly → s.Reaches s' → s'.Orderly :=
    fun orderly later => later.keeps orderly fun turn orderly => turn.orderly orderly
  have later : s₁.Reaches s₃ := goes.turn.reaches.trans after
  have orderly₁ : s₁.Orderly := orderly h before
  have books : s₃.moment.Booked c := (orderly orderly₁ later).booked c
  cases goes with
  | held free asleep holds =>
    obtain ⟨found, there, gone⟩ := (Option.any_eq_true _ _).1 holds
    obtain ⟨context', hc', becomes⟩ := (later.since orderly₁).stays there
    cases hc'.symm.trans hc
    exact .concluded (books.concluded_of_exited hc (becomes.gone gone))
  | late free asleep due =>
    have late : deadline ≤ s₃.world.clock := Nat.le_trans (due deadline rfl) (later.clock orderly₁)
    cases running : context.running with
    | false => exact .stopped late hc running
    | true => exact .runs late hc running

/-- What becomes of a thread that waits for the end of a context. -/
structure ExitAwaited (c : ContextId) (deadline : Instant) (thread : Thread)
    (rest : Option Bool → Act μ β) (caller : Except Panic β → Option (Strand μ)) (s : Timeline μ) :
    Prop where
  /-- It waits. -/
  waits : exitWaiter c deadline thread rest caller ∈ s.asleep
  /-- While it waits, every turn leaves it where it is, or it goes on. -/
  goesOn : ∀ {s₁ s₂ : Timeline μ}, s.Reaches s₁ → s₁.Turn s₂ →
    exitWaiter c deadline thread rest caller ∈ s₁.asleep →
    exitWaiter c deadline thread rest caller ∈ s₂.asleep ∨
      ∃ gone, (exitWaiter c deadline thread rest caller).GoesOn gone s₁ s₂
  /-- Once it goes on it gets an answer, which tells what is so when it gets it. -/
  told : ∀ {s₁ s₂ s₃ : Timeline μ} {gone : Bool}, s.Reaches s₁ →
    (exitWaiter c deadline thread rest caller).GoesOn gone s₁ s₂ → s₂.Reaches s₃ →
    ∃ answer, s₃.Tells c deadline answer ∧
      awaitedExit c rest gone { s₃.world with thread := thread } =
        rest (some answer) { s₃.world with thread := thread }

/-- A wait for the end of a context that comes back with yes means that the context is concluded, but
for one case. If it is over when the wait begins, the answer is yes at once and all is done. Else the
thread waits, and every turn leaves it there or it goes on, because the thread of the context is gone
or because its time is over; whenever it then gets its answer, a yes tells that all is done, or else
that the time is over and the context was stopped; and a no that the time is over and the context
still runs. -/
theorem yes_means_over_or_late (h : s.Lived) {work : Act μ β}
    (running : s.running = some (.mk thread work caller)) (since : s.world.Tends w)
    {context : Context Ticket} (hc : w.contexts[c]? = some context) {bound : Duration}
    (comes : work { s.world with thread := thread } = (awaitExit c bound >>= rest) w) :
    (context.isOver = true → (⟨s.past, w⟩ : Moment μ).Concluded c ∧
      work { s.world with thread := thread } = rest (some true) w) ∧
    (context.isOver = false →
      ExitAwaited c (s.world.after bound) thread rest caller (s.works (.mk thread work caller))) := by
  rw [awaitExit_run hc] at comes
  have books : (⟨s.past, w⟩ : Moment μ).Booked c := (h.orderly.booked c).tends since
  refine ⟨fun ended => ⟨books.concluded_of_isOver hc ended, ?_⟩, fun lasts => ?_⟩
  · rw [comes, if_pos ended]
  · rw [if_neg (by simp [lasts])] at comes
    have orderly : (s.works (.mk thread work caller)).Orderly :=
      (Timeline.Turn.works running).orderly h.orderly
    have deadline : w.after bound = s.world.after bound := congrArg (· + bound.nanos) since.clock
    have stops : (s.works (.mk thread work caller)).world = w ∧
        exitWaiter c (s.world.after bound) thread rest caller ∈
          (s.works (.mk thread work caller)).asleep := by
      rw [s.works_mk, comes, ← deadline]
      exact ⟨rfl, List.mem_append_right _ (List.mem_singleton_self _)⟩
    refine ⟨stops.2, fun _ turn asleep => turn.waits_or_goesOn asleep rfl, ?_⟩
    intro s₁ s₂ s₃ gone before goes after
    have since : Context.Since w.contexts s₃.world.contexts :=
      stops.1 ▸ (before.trans (goes.turn.reaches.trans after)).since orderly
    obtain ⟨context', hc', -⟩ := since.stays hc
    refine ⟨gone || !context'.running, before.tells orderly goes after hc', ?_⟩
    simp only [awaitedExit, hc', Option.map_some]

end Waiter

/-! ### A yes too early -/

/-- Who waits goes on in the world it finds. -/
theorem Act.KeepsFrom.await {C : Conduct μ} {P T : Panic → Prop} {Q : Bool → Prop} {w₀ : World μ}
    (plain : C.Plain T) (along : C.Along w₀ w) (holds : World μ → Bool) (bound : Option Duration)
    (goesOn : ∀ b, Q b) : (Act.await holds bound).KeepsFrom C w₀ w P Q :=
  ⟨along, fun b _ _ found => ⟨plain.along found, goesOn b⟩⟩

theorem awaitExit_regular {w₀ : World μ} (along : Conduct.regular.Along w₀ w) (bound : Duration) :
    (awaitExit c bound).KeepsFrom .regular w₀ w (fun _ => True) fun _ => True := by
  refine .get ?_
  split
  · exact .pure along trivial
  · split
    · exact .pure along trivial
    · refine .bind (.await (T := fun _ => True) (Q := fun _ => True) Conduct.regular_plain along _ _
        fun _ => trivial) fun _ _ _ along _ => ?_
      exact .get (.pure along trivial)

/-- Keeps in mind what an answer was. -/
def remember (answer : Option Bool) : Act (Option Bool) Unit :=
  modify fun w => { w with memory := answer }

/-- Starts a context, leaves it a task that never ends, stops it, waits for its end, and keeps in mind
what the answer was. -/
def stopWhileBusy : Act (Option Bool) Unit := do
  modify fun w => { w with contexts := w.contexts ++ [.start .default] }
  let _ ← leaveWith 0 do
    let _ ← Act.await (fun _ => false) none
  modify (·.modifyContext 0 Context.stop)
  remember (← awaitExit 0 ⟨1⟩)

theorem stopWhileBusy_lived : (Timeline.start none stopWhileBusy).Lived := by
  refine ⟨none, stopWhileBusy, Strand.regular_of_spawn Context.spawn_default ⟨fun along => ?_⟩, .refl _⟩
  refine .bind (leaveWith_regular along fun here => ?_) fun w₀ w' _ along _ => .modify ?_
  · have plain : (Conduct.regular : Conduct (Option Bool)).Plain := Conduct.regular_plain
    refine .bind (.await plain (plain.along trivial) _ _ fun _ => trivial) ?_
    exact fun _ _ _ along _ => .pure along trivial
  · have stopped : Conduct.regular.Along w₀ (w'.modifyContext 0 Context.stop) :=
      ⟨along.thread, { along.leaves with contexts := along.leaves.contexts.tail (.stop _ 0) }⟩
    refine .bind (awaitExit_regular stopped ⟨1⟩) fun _ _ _ along _ => ?_
    exact .of_done rfl ⟨along.thread, { along.leaves with }⟩ trivial

/-- The context has accepted the task. -/
def busy : Timeline (Option Bool) :=
  (Timeline.start none stopWhileBusy).works (.mk (.client 0) stopWhileBusy fun _ => none)

theorem busy_lived : busy.Lived := stopWhileBusy_lived.reaches (Timeline.Turn.works rfl).reaches

/-- The wait is followed from the turn on in which it begins. -/
theorem yes_means_over_or_late_busy : ∃ s : Timeline (Option Bool), s.Lived ∧
    ExitAwaited 0 1 (.client 0) remember (fun _ => none) s := by
  have waits := busy_lived.reaches (Timeline.Turn.works rfl).reaches
  exact ⟨_, waits, (@yes_means_over_or_late _ _ _ 0 (busy.world.modifyContext 0 Context.stop)
    (.client 0) remember (fun _ => none) busy_lived _ rfl ⟨.single (.stop _ 0), rfl, rfl, rfl⟩ _ rfl ⟨1⟩
    rfl).2 rfl⟩

/-- The answer is yes, and the only task that the context accepted is still under way. -/
theorem yes_while_busy : ∃ s : Timeline (Option Bool), s.Lived ∧ busy.Reaches s ∧
    s.world.memory = some true ∧ s.moment.accepted 0 = [0] ∧ s.moment.begun 0 = [0] ∧
    s.moment.finished 0 = [] ∧ (s.world.contexts[0]?).map Context.pending = some 1 ∧
    ¬s.moment.Concluded 0 := by
  have waits : busy.Reaches _ := (Timeline.Turn.works rfl).reaches
  have begins := waits.trans (Timeline.Turn.serves (c := 0) rfl rfl rfl).reaches
  have works := begins.trans (Timeline.Turn.works rfl).reaches
  have passes := works.trans (@Timeline.Turn.passes _ _ 1 (Nat.zero_le _)).reaches
  have late := passes.trans (@Timeline.Turn.givesUp _ _ _ [] _ rfl rfl
    fun deadline due => Nat.le_of_eq (Option.some.inj due).symm).reaches
  have answers := late.trans (Timeline.Turn.works rfl).reaches
  refine ⟨_, busy_lived.reaches answers, answers, ?_, ?_, ?_, ?_, ?_, fun done => ?_⟩
  · decide +kernel
  · decide +kernel
  · decide +kernel
  · decide +kernel
  · decide +kernel
  · exact absurd done.finished (by decide +kernel)

end TableAccess
