import TableAccess.Proofs.Contexts
import TableAccess.Proofs.HandOffs
import TableAccess.Session.ContextCalls

/-!
# The accounts of contexts

A context counts the tasks it has accepted and not finished. The count is exact at every time, and
the queue is never longer than it may be, requests to shut down included. A call is refused for two
reasons only, and exactly when they are there: the context is stopped, or its queue is as long as it
may be. What is refused has happened to nobody: all that becomes of it is a note in the log.

A queue that may hold nothing is full unless the thread of the context waits for a message. Then it
takes one, although it is as long as it may be.

## The model

* `Context.IsFull` — there is no place for another message.
* `Context.Accounts` — what the count, the queue and the answers of a context are at one time.
* `Context.Kept` — what holds of a context that starts and is kept by all that is done to contexts;
  `Kept.lived` — it holds of all contexts at every time.
* `leaveWith` — a task left to a context without waiting for it.
* `Context.Rejects` — when a call is refused, and what becomes of it then.
* `queue_accounting_is_exact` — the main statement.
-/

namespace TableAccess

variable {μ α τ : Type} {s s' : Timeline μ} {c : ContextId} {w w' : World μ}

namespace Context

/-! ### Why a task is not accepted -/

section Accept

variable {context : Context τ} {task : τ}

theorem accept_stopped_iff : context.accept task = .error .stopped ↔ context.running = false := by
  unfold accept
  by_cases running : context.running = true
  · by_cases room : context.HasRoom <;> simp [running, room]
  · simp [running]

theorem accept_full_iff :
    context.accept task = .error .full ↔ context.running = true ∧ ¬context.HasRoom := by
  unfold accept
  by_cases running : context.running = true
  · by_cases room : context.HasRoom <;> simp [running, room]
  · simp [running]

end Accept

namespace Chronicle

/-- Whatever was refused before, a move does the same. -/
theorem move_of_refused (h : Chronicle τ) (refused : List τ) (m : Move τ) :
    ∃ more, (h.move m).refused = h.refused ++ more ∧
      ({ h with refused := refused } : Chronicle τ).move m =
        { h.move m with refused := refused ++ more } := by
  cases m with
  | submit task =>
    cases accepts : h.context.accept task with
    | ok => exact ⟨[], by simp [move, accepts], by simp [move, accepts]⟩
    | error => exact ⟨[task], by simp [move, accepts], by simp [move, accepts]⟩
  | finish =>
    cases current : h.context.current <;>
      exact ⟨[], by simp [move, current], by simp [move, current]⟩
  | _ => exact ⟨[], by simp [move], by simp [move]⟩

theorem after_of_refused (h : Chronicle τ) (refused : List τ) (moves : List (Move τ)) :
    ∃ more, (h.after moves).refused = h.refused ++ more ∧
      ({ h with refused := refused } : Chronicle τ).after moves =
        { h.after moves with refused := refused ++ more } := by
  induction moves generalizing h refused with
  | nil => exact ⟨[], (List.append_nil _).symm, by simp [after]⟩
  | cons m rest ih =>
    obtain ⟨more, grows, same⟩ := h.move_of_refused refused m
    obtain ⟨more', grows', same'⟩ := ih (h.move m) (refused ++ more)
    refine ⟨more ++ more', ?_, ?_⟩
    · show ((h.move m).after rest).refused = _
      rw [grows', grows, List.append_assoc]
    · show (({ h with refused := refused } : Chronicle τ).move m).after rest = _
      rw [same, same', List.append_assoc]
      rfl

/-- A task that is refused makes no difference to what becomes of the others. -/
theorem after_refused {h : Chronicle τ} {task : τ} {refusal : Refusal}
    (refused : h.context.accept task = .error refusal) (later : List (Move τ)) :
    ∃ more, (h.after later).refused = h.refused ++ more ∧
      h.after (.submit task :: later) =
        { h.after later with refused := h.refused ++ task :: more } := by
  obtain ⟨more, grows, same⟩ := h.after_of_refused (h.refused ++ [task]) later
  have moved : h.move (.submit task) = { h with refused := h.refused ++ [task] } := by
    simp [move, refused]
  refine ⟨more, grows, ?_⟩
  show (h.move (.submit task)).after later = _
  rw [moved, same, List.append_assoc]
  rfl

end Chronicle

/-! ### The length of the queue -/

/-- The queue is not longer than it may be. If it may hold nothing there is at most the message that the
thread has been handed. -/
def Bounded (context : Context τ) : Prop := context.queue.length ≤ max context.capacity 1

/-- There is no place for another message: the queue is as long as it may be, or it may hold nothing, and
the thread does not wait for a message. -/
def IsFull (context : Context τ) : Prop :=
  0 < context.capacity ∧ context.queue.length = context.capacity ∨
    context.capacity = 0 ∧ context.isWaiting = false

theorem HasRoom.length_lt {context : Context τ} (room : context.HasRoom) :
    context.queue.length < max context.capacity 1 := by
  rcases room with room | ⟨-, waiting⟩
  · exact Nat.lt_of_lt_of_le room (Nat.le_max_left _ _)
  · have empty : context.queue = [] := by
      by_contra some
      cases waiting.symm.trans (isWaiting_of_ne_nil some)
    rw [empty]
    exact Nat.lt_of_lt_of_le Nat.one_pos (Nat.le_max_right _ _)

namespace Bounded

variable {context context' : Context τ} {task : τ}

theorem start (config : Config) : (Context.start config : Context τ).Bounded := Nat.zero_le _

/-- A message is put in its place. -/
theorem append (room : context.HasRoom) (message : Message τ) :
    (context.queue ++ [message]).length ≤ max context.capacity 1 := by
  rw [List.length_append]
  exact room.length_lt

theorem accept (h : context.accept task = .ok context') : context'.Bounded := by
  obtain ⟨running, rfl⟩ := accept_eq_ok h
  have room : context.HasRoom := by
    by_contra full
    rw [accept_full_iff.2 ⟨running, full⟩] at h
    cases h
  exact append room _

/-- The request to shut down takes a place in the queue, if there is one. -/
theorem stop (h : context.Bounded) : context.stop.Bounded := by
  unfold Bounded Context.stop
  split
  · rename_i room
    exact append room.1 _
  · exact h

theorem next (h : context.Bounded) : context.next.Bounded := by
  have shorter : ∀ {first : Message τ} {rest}, context.queue = first :: rest →
      rest.length ≤ max context.capacity 1 := fun {first rest} queue => by
    unfold Bounded at h
    rw [queue, List.length_cons] at h
    exact Nat.le_of_succ_le h
  rcases next_cases context with ⟨same, -⟩ | ⟨task, rest, -, queue, takes⟩ |
    ⟨rest, -, queue, takes⟩ | ⟨-, -, -, leaves⟩ | ⟨-, -, same⟩
  · rwa [same]
  · rw [takes]
    exact shorter queue
  · rw [takes]
    exact shorter queue
  · rw [leaves]
    exact h
  · rwa [same]

/-- There is room unless the context is full. -/
theorem not_hasRoom_iff (h : context.Bounded) : ¬context.HasRoom ↔ context.IsFull := by
  unfold Bounded at h
  unfold HasRoom IsFull
  by_cases none : context.capacity = 0
  · simp [none]
  · simp only [none, false_and, or_false]
    omega

end Bounded

/-! ### The accounts -/

/-- The accounts of a context that has accepted, begun and finished some tasks. -/
structure Accounts (context : Context τ) (accepted begun finished : List τ) : Prop where
  /-- The accepted tasks that were not begun are those in the queue, in order. -/
  queued : accepted = begun ++ context.waiting
  /-- The begun tasks are finished, but for the one that is being executed. -/
  executing : begun = finished ++ context.current.toList
  /-- The tasks in the queue are counted, and one more while one is being executed. -/
  pending : context.pending = context.waiting.length + if context.current.isSome then 1 else 0
  /-- The queue holds no more messages than it may, of whatever kind. -/
  bounded : 0 < context.capacity → context.queue.length ≤ context.capacity
  /-- If it may hold none, there is at most the one that the thread has been handed. -/
  handed : context.capacity = 0 → context.queue.length ≤ 1
  /-- A task finds no room exactly when the context runs and is full. -/
  full : ∀ task, context.accept task = .error .full ↔ context.running = true ∧ context.IsFull
  /-- It comes too late exactly when the context is stopped. -/
  stopped : ∀ task, context.accept task = .error .stopped ↔ context.running = false
  /-- Whatever is done to the context afterwards comes to the same with a task that is refused as
  without it, but for that refusal itself. -/
  unaffected : ∀ task refusal, context.accept task = .error refusal → ∀ later : List (Move τ),
    let h : Chronicle τ := ⟨context, accepted, [], begun, finished⟩
    h.after (.submit task :: later) =
      { h.after later with refused := task :: (h.after later).refused }

theorem Ledger.accounts {context : Context τ} {accepted begun finished : List τ}
    (h : context.Ledger accepted begun finished) (bounded : context.Bounded) :
    context.Accounts accepted begun finished where
  queued := h.order
  executing := h.busy
  pending := by
    rw [h.pending]
    cases context.current <;> rfl
  bounded holds := Nat.le_trans bounded (Nat.max_le.2 ⟨Nat.le_refl _, holds⟩)
  handed none := Nat.le_trans bounded (Nat.max_le.2 ⟨none ▸ Nat.zero_le 1, Nat.le_refl 1⟩)
  full task := by rw [accept_full_iff, bounded.not_hasRoom_iff]
  stopped task := accept_stopped_iff
  unaffected task refusal refused later := by
    obtain ⟨more, grows, same⟩ := Chronicle.after_refused
      (h := ⟨context, accepted, [], begun, finished⟩) refused later
    dsimp only
    rw [same, grows]
    rfl

/-! ### All contexts of a world -/

/-- What holds of a context that starts and is kept by all that is done to contexts. -/
structure Kept (P : Context Ticket → Prop) : Prop where
  start : ∀ config, P (.start config)
  accept : ∀ {context context' : Context Ticket} {task}, P context →
    context.accept task = .ok context' → P context'
  stop : ∀ {context : Context Ticket}, P context → P context.stop
  join : ∀ {context : Context Ticket}, P context → P context.join.2
  next : ∀ {context : Context Ticket}, P context → P context.next
  finish : ∀ {context : Context Ticket}, P context → P context.finish

namespace Kept

variable {P : Context Ticket → Prop}

theorem becomes {context context' : Context Ticket} (kept : Kept P)
    (h : context.Becomes context') (holds : P context) : P context' := by
  refine h.keeps holds fun change holds => ?_
  cases change with
  | accept ok => exact kept.accept holds ok
  | stop => exact kept.stop holds
  | join => exact kept.join holds
  | next => exact kept.next holds
  | finish => exact kept.finish holds

theorem tends (kept : Kept P) (h : ∀ context ∈ w.contexts, P context) (tends : w.Tends w') :
    ∀ context ∈ w'.contexts, P context := by
  have since : Since w.contexts w'.contexts := .of_tended tends.contexts
  intro context' mem
  obtain ⟨c, hc'⟩ := List.mem_iff_getElem?.1 mem
  cases hc : w.contexts[c]? with
  | none =>
    obtain ⟨config, becomes⟩ := since.started hc hc'
    exact kept.becomes becomes (kept.start config)
  | some context =>
    obtain ⟨found, there, becomes⟩ := since.stays hc
    cases there.symm.trans hc'
    exact kept.becomes becomes (h context (List.mem_of_getElem? hc))

/-- It holds of all contexts at every time. -/
theorem lived (kept : Kept P) (h : s.Lived) : ∀ context ∈ s.world.contexts, P context := by
  intro context mem
  obtain ⟨c, hc⟩ := List.mem_iff_getElem?.1 mem
  obtain ⟨config, becomes⟩ := h.started hc
  exact kept.becomes becomes (kept.start config)

end Kept

theorem Bounded.kept : Kept Bounded where
  start := .start
  accept _ ok := .accept ok
  stop := .stop
  join h := h
  next := .next
  finish h := h

end Context

/-! ### Calls that are refused -/

/-- A task left to a context without waiting for it. -/
def leaveWith (c : ContextId) (task : Act μ Unit) : Act μ (Except Unavailable Unit) := do
  match ← enqueue c with
  | .error cause => pure (.error cause)
  | .ok ticket =>
    Act.leave c ticket task
    pure (.ok ())

/-- What the caller is told whose task was not accepted. -/
def Refusal.told : Refusal → Unavailable
  | .stopped => .contextStopped
  | .full => .queueFull

/-- A call ends without its task having been accepted, whatever the others do. -/
def Act.IsRefused (act : Act μ (Except Unavailable α)) (w : World μ) (refusal : Refusal)
    (w' : World μ) : Prop :=
  act.Ends (fun _ _ => True) w (.ok (.error refusal.told)) w'

/-- A call to a context is refused exactly when there is a reason, and then nothing has happened. -/
structure Context.Rejects (context : Context Ticket) (act : Act μ (Except Unavailable α))
    (w : World μ) : Prop where
  /-- The context runs and is full. -/
  full : (∃ w', act.IsRefused w .full w') ↔ context.running = true ∧ context.IsFull
  /-- The context is stopped. -/
  stopped : (∃ w', act.IsRefused w .stopped w') ↔ context.running = false
  /-- The caller is told at once, without another thread having gone on, and the world is as it was
  but for its log. -/
  unmoved : ∀ refusal w', act.IsRefused w refusal w' →
    act w = .done (.ok (.error refusal.told)) w' ∧ ∃ log, w' = { w with log := log }

section Rejects

variable {context : Context Ticket}

/-- It is enough to know what the call comes to when the task is refused, and that whoever has his
task accepted is told something else. -/
theorem Context.rejects_of_runs {act : Act μ (Except Unavailable α)} (bounded : context.Bounded)
    (refused : ∀ refusal, context.accept w.tickets = .error refusal →
      ∃ log, act w = .done (.ok (.error refusal.told)) { w with log := log })
    (accepted : ∀ context', context.accept w.tickets = .ok context' →
      ∀ refusal w', ¬act.IsRefused w refusal w') : context.Rejects act w := by
  have told : ∀ refusal w', act.IsRefused w refusal w' →
      context.accept w.tickets = .error refusal ∧
      act w = .done (.ok (.error refusal.told)) w' ∧ ∃ log, w' = { w with log := log } := by
    intro refusal w' ends
    cases accepts : context.accept w.tickets with
    | ok context' => exact absurd ends (accepted context' accepts refusal w')
    | error refusal' =>
      obtain ⟨log, run⟩ := refused refusal' accepts
      have ends := ends.ends
      rw [run] at ends ⊢
      obtain ⟨same, rfl⟩ := ends
      have one : refusal' = refusal := by
        cases refusal <;> cases refusal' <;> first | rfl | cases same
      exact ⟨by rw [one], by rw [one], log, rfl⟩
  have tells : ∀ refusal, context.accept w.tickets = .error refusal →
      ∃ w', act.IsRefused w refusal w' := by
    intro refusal refuses
    obtain ⟨log, run⟩ := refused refusal refuses
    refine ⟨{ w with log := log }, ⟨?_⟩⟩
    rw [run]
    exact ⟨rfl, rfl⟩
  refine ⟨⟨?_, ?_⟩, ⟨?_, ?_⟩, fun refusal w' ends => (told refusal w' ends).2⟩
  · rintro ⟨w', ends⟩
    have full := Context.accept_full_iff.1 (told _ w' ends).1
    exact ⟨full.1, bounded.not_hasRoom_iff.1 full.2⟩
  · rintro ⟨running, full⟩
    exact tells .full (Context.accept_full_iff.2 ⟨running, bounded.not_hasRoom_iff.2 full⟩)
  · rintro ⟨w', ends⟩
    exact Context.accept_stopped_iff.1 (told _ w' ends).1
  · exact fun stopped => tells .stopped (Context.accept_stopped_iff.2 stopped)

theorem enqueue_of_refused {refusal : Refusal} (hc : w.contexts[c]? = some context)
    (refuses : context.accept w.tickets = .error refusal) :
    ∃ log, enqueue c w = .done (.ok (.error refusal.told)) { w with log := log } := by
  unfold enqueue
  simp only [Act.bind_apply, Act.get_apply, Progress.bind, hc, refuses]
  cases refusal with
  | stopped => exact ⟨w.log, rfl⟩
  | full => exact ⟨_, rfl⟩

/-- A task is left to a context, or refused. -/
theorem leaveWith_rejects (bounded : context.Bounded) (hc : w.contexts[c]? = some context)
    (task : Act μ Unit) : context.Rejects (leaveWith c task) w := by
  refine Context.rejects_of_runs bounded (fun refusal refuses => ?_) fun accepted ok refusal w' ends => ?_
  · obtain ⟨log, run⟩ := enqueue_of_refused hc refuses
    refine ⟨log, ?_⟩
    unfold leaveWith
    rw [Act.bind_apply, run]
    rfl
  · have ends := ends.ends
    unfold leaveWith at ends
    rw [Act.bind_apply, enqueue_run hc ok] at ends
    obtain ⟨later, -, same, -⟩ := ends
    cases same

/-- A task is handed over, or refused; whoever waits for its result is not told that it was
refused. -/
theorem handOff_rejects (bounded : context.Bounded) (hc : w.contexts[c]? = some context)
    (off : w.thread ≠ .toolkit c) (bound : Option Duration) (work : Act μ α) :
    context.Rejects (handOff c bound work) w := by
  refine Context.rejects_of_runs bounded (fun refusal refuses => ?_) fun accepted ok refusal w' ends => ?_
  · rw [handOff_of_refused bound off work hc refuses]
    cases refusal with
    | stopped => exact ⟨_, rfl⟩
    | full => exact ⟨_, rfl⟩
  · have ends := ends.ends
    by_cases fits : (bound.getD context.timeout).FitsClock w.clock
    · obtain ⟨next, calls, answered, untold⟩ := handOff_calls bound off work hc ok fits
      rw [calls] at ends
      obtain ⟨answer, later, -, goesOn⟩ := ends
      cases answer with
      | none =>
        obtain ⟨e, told⟩ := untold later
        rw [told] at goesOn
        cases refusal <;> cases goesOn.1
      | some result =>
        rw [answered] at goesOn
        cases result <;> cases refusal <;> cases goesOn.1
    · rw [handOff_overruns bound off work hc ok fits] at ends
      obtain ⟨later, -, same, -⟩ := ends
      cases same

end Rejects

/-- Leaving a task to a context does no more to contexts than handing one over. -/
theorem leaveWith_regular {w₀ : World μ} (along : Conduct.regular.Along w₀ w) {task : Act μ Unit}
    (does : ∀ {w}, w.thread = .toolkit c →
      task.KeepsFrom .regular w w (fun _ => True) fun _ => True) :
    (leaveWith c task).KeepsFrom .regular w₀ w (fun _ => True) fun _ => True := by
  have logs : ∀ log, Conduct.regular.Along w₀ { w with log := log } := fun log =>
    ⟨along.thread, { along.leaves with }⟩
  cases hc : w.contexts[c]? with
  | none =>
    have absent : leaveWith c task w = .done (.ok (.error .contextStopped)) w := by
      unfold leaveWith enqueue
      simp only [Act.bind_apply, Act.get_apply, Progress.bind, hc]
      rfl
    exact .of_done absent along trivial
  | some context =>
    cases ok : context.accept w.tickets with
    | error refusal =>
      obtain ⟨log, run⟩ := enqueue_of_refused hc ok
      refine .bind (.of_done (Q := fun r : Except Unavailable Ticket => r = .error refusal.told)
        run (logs log) rfl) ?_
      rintro _ _ _ along rfl
      exact .pure along trivial
    | ok accepted =>
      have hands : Conduct.regular.Hands c w.tickets w₀
          { w.modifyContext c fun _ => accepted with tickets := w.tickets + 1 } :=
        ⟨w, along, ⟨context, accepted, hc, ok, rfl⟩, rfl, rfl, rfl⟩
      have leaves : leaveWith c task w =
          (do
            Act.leave c w.tickets task
            pure (.ok ()) : Act μ (Except Unavailable Unit))
            { w.modifyContext c fun _ => accepted with tickets := w.tickets + 1 } := by
        unfold leaveWith
        rw [Act.bind_apply, enqueue_run hc ok]
        rfl
      refine .of_eq (.bind (.leave (Q := fun _ => True) hands Conduct.regular_plain
        (fun _ here => does here) trivial) ?_) leaves
      exact fun _ _ _ along _ => .pure along trivial

theorem Session.act_bind {β : Type} (first : Act Session.Desk α) (f : α → Act Session.Desk β) :
    Session.act (first >>= f) = (do Session.act (f (← Session.act first))) := by
  apply ExceptT.ext
  simp [Session.act]

/-- A session posts a task in no other way. -/
theorem Session.post_eq (c : ContextId) (task : Act Session.Desk Unit) :
    Session.post c task = (do Session.orUnavailable (← Session.act (leaveWith c task))) := by
  have leaves : ∀ r : Except Unavailable Ticket,
      (do Session.act (Act.leave c (← Session.orUnavailable r) task) : Session.Work Unit) =
        (do Session.orUnavailable (← Session.act (match r with
          | .error cause => pure (.error cause)
          | .ok ticket => do
            Act.leave c ticket task
            pure (.ok ())))) := by
    intro r
    cases r <;> rfl
  unfold Session.post leaveWith
  simp only [leaves, act_bind, bind_assoc]

/-- The accounts of a context are exact, and a call that it refuses has no effect. At every time of a
timeline, and wherever the thread that goes on has come to before it makes a call: the count of a
context is the number of accepted tasks in its queue, and one more while one is being executed; the
queue is not longer than it may be; a task that is left to the context, or handed over from another
thread, is refused because of a full queue exactly when the context runs and its queue is as long as
it may be, and because the context is stopped exactly when it is; and a call that is refused ends at
once and leaves the world as it was but for the log, so that whatever is done to the context
afterwards comes to the same as without it. If the queue may hold nothing, a task is refused because
of it exactly when the context runs and its thread does not wait for a message. -/
theorem queue_accounting_is_exact (h : s.Lived) (since : s.world.Tends w)
    {context : Context Ticket} (hc : w.contexts[c]? = some context) :
    context.Accounts (s.moment.accepted c) (s.moment.begun c) (s.moment.finished c) ∧
    (∀ task : Act μ Unit, context.Rejects (leaveWith c task) w) ∧
    (w.thread ≠ .toolkit c → ∀ {α : Type} (bound : Option Duration) (work : Act μ α),
      context.Rejects (handOff c bound work) w) := by
  have bounded : context.Bounded :=
    Context.Bounded.kept.tends (Context.Bounded.kept.lived h) since context
      (List.mem_of_getElem? hc)
  have books : (⟨s.past, w⟩ : Moment μ).Booked c := (h.orderly.booked c).tends since
  exact ⟨(books.ledger hc).accounts bounded, leaveWith_rejects bounded hc,
    fun off _ bound work => handOff_rejects bounded hc off bound work⟩

/-- Starts a context whose queue holds one task, and leaves one to it. -/
def fillQueue : Act Unit Unit := do
  modify fun w => { w with contexts := w.contexts ++ [.start { Config.default with queueCapacity := 1 }] }
  let _ ← leaveWith 0 (pure ())

theorem fillQueue_keeps :
    (Strand.mk (.client 0) fillQueue fun _ => none).Keeps .regular := by
  have spawns : Context.spawn { Config.default with queueCapacity := 1 } =
      .ok (.start { Config.default with queueCapacity := 1 } : Context Ticket) :=
    Context.spawn_of_named (by decide) Context.zeroByte?_default
  refine Strand.regular_of_spawn spawns ⟨fun along => .bind (leaveWith_regular along fun here => ?_) ?_⟩
  · exact .pure ⟨rfl, .refl _⟩ trivial
  · exact fun _ _ _ along _ => .pure along trivial

/-- The first task fills the queue, and a second one is refused, with nothing counted for it. -/
theorem queue_accounting_is_exact_full : ∃ (s : Timeline Unit) (context : Context Ticket),
    s.Lived ∧ s.world.contexts[0]? = some context ∧ context.pending = 1 ∧
      ∃ w', (leaveWith 0 (pure ())).IsRefused s.world .full w' := by
  have lived : ((Timeline.start () fillQueue).works (.mk (.client 0) fillQueue fun _ => none)).Lived :=
    ⟨_, _, fillQueue_keeps, (Timeline.Turn.works rfl).reaches⟩
  obtain ⟨accounts, rejects, -⟩ := queue_accounting_is_exact lived (.refl _) (c := 0) rfl
  exact ⟨_, _, lived, rfl, accounts.pending,
    (rejects (pure ())).full.2 ⟨rfl, .inl ⟨Nat.one_pos, rfl⟩⟩⟩

/-- Starts a context whose queue may hold nothing. -/
def startWithoutQueue : Act Unit Unit := do
  modify fun w => { w with contexts := w.contexts ++ [.start { Config.default with queueCapacity := 0 }] }
  pure ()

/-- A task is not refused although the queue is as long as it may be: it may hold nothing, and the thread
takes the task itself. -/
theorem queue_of_no_length_takes_a_task : ∃ (s : Timeline Unit) (context : Context Ticket),
    s.Lived ∧ s.world.contexts[0]? = some context ∧ context.running = true ∧
      context.queue.length = context.capacity ∧
      ∀ refusal w', ¬(leaveWith 0 (pure ())).IsRefused s.world refusal w' := by
  have spawns : Context.spawn { Config.default with queueCapacity := 0 } =
      .ok (.start { Config.default with queueCapacity := 0 } : Context Ticket) :=
    Context.spawn_of_named (by decide) Context.zeroByte?_default
  have keeps : (Strand.mk (.client 0) startWithoutQueue fun _ => none).Keeps .regular :=
    Strand.regular_of_spawn spawns (.pure trivial)
  let s := (Timeline.start () startWithoutQueue).works (.mk (.client 0) startWithoutQueue fun _ => none)
  let context : Context Ticket := .start { Config.default with queueCapacity := 0 }
  have hc : s.world.contexts[0]? = some context := rfl
  have rejects := leaveWith_rejects (.start _) hc (pure ())
  refine ⟨s, context, ⟨_, _, keeps, (Timeline.Turn.works rfl).reaches⟩, hc, rfl, rfl, ?_⟩
  rintro (_ | _) w' refused
  · cases rejects.stopped.1 ⟨w', refused⟩
  · rcases (rejects.full.1 ⟨w', refused⟩).2 with ⟨some, -⟩ | ⟨-, busy⟩
    · cases some
    · cases busy

end TableAccess
