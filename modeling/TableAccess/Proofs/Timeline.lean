import TableAccess.Schedule
import TableAccess.Proofs.Conduct
import TableAccess.Proofs.Moment

/-!
# Timelines

A schedule decides who goes on next. A timeline leaves that open: at every turn any thread that can
go on may do so, the thread that works may have to stand back behind the others, any context whose
thread is free may take its next task, and the clock goes on as it likes; a thread whose time is up
may give up its wait then or later, or get what it waits for after all. Every schedule is one such
timeline. What it remembers beyond the schedule is what was done to tasks and who called them.

## The model

* `Errand` — a task that was called for, with its caller; `Act.Rest` — what is left of a task.
* `Timeline` — a schedule with its past; `Timeline.Turn` — what can come next.
* `Conduct.regular` — nothing is done to contexts but to start, stop and join them and to hand tasks
  over to them.
* `Timeline.Lived` — a timeline that can come to be.
* `Timeline.reaches_move` — the schedule takes one of these turns.
-/

namespace TableAccess

variable {μ α β : Type}

/-- The thread of a strand. -/
def Strand.thread : Strand μ → Thread
  | .mk thread _ _ => thread

/-! ### Errands -/

/-- A task that a context accepted, and the caller who waits for its result. -/
structure Errand (μ : Type) where
  /-- The types of what the caller is about and of the result. -/
  {α β : Type}
  /-- The context. -/
  context : ContextId
  /-- The ticket of the task. -/
  ticket : Ticket
  /-- The task. -/
  task : Act μ β
  /-- The thread of the caller. -/
  thread : Thread
  /-- How the caller goes on with the result, or without one. -/
  next : Option (Except Panic β) → Act μ α
  /-- Who waits for the caller. -/
  caller : Except Panic α → Option (Strand μ)
  /-- When the caller has waited long enough. -/
  deadline : Instant

namespace Errand

variable (errand : Errand μ)

/-- The caller going on, with a result or without one. -/
def goesOn (answer : Option (Except Panic errand.β)) : Strand μ :=
  .mk errand.thread (errand.next answer) errand.caller

/-- The caller while it waits. -/
def sleeper : Sleeper μ :=
  ⟨some errand.ticket, fun _ => false, some errand.deadline, fun _ => errand.goesOn none⟩

/-- The thread of the context with what is left of the task. -/
def strand (work : Act μ errand.β) : Strand μ :=
  .mk (.toolkit errand.context) work fun result => some (errand.goesOn (some result))

end Errand

/-- What is left of a task that has stopped some times and gone on. -/
inductive Act.Rest (task : Act μ β) : Act μ β → Prop where
  /-- It has not begun yet. -/
  | whole : task.Rest task
  /-- It has waited for something. -/
  | awaited {work : Act μ β} {holds : World μ → Bool} {bound : Option Duration} {w w' : World μ}
      {next : Bool → World μ → Progress μ β} (rest : task.Rest work)
      (stops : work w = .awaiting holds bound w' next) (b : Bool) : task.Rest (next b)
  /-- It has left a task to a context. -/
  | left {work : Act μ β} {c : ContextId} {k : Ticket} {other : World μ → Progress μ Unit}
      {w w' : World μ} {next : World μ → Progress μ β} (rest : task.Rest work)
      (stops : work w = .leaving c k other w' next) : task.Rest next
  /-- It has called another task. -/
  | called {γ : Type} {work : Act μ β} {c : ContextId} {k : Ticket} {bound : Duration}
      {other : World μ → Progress μ γ} {w w' : World μ}
      {next : Option (Except Panic γ) → World μ → Progress μ β} (rest : task.Rest work)
      (stops : work w = .calling c k bound other w' next) (answer : Option (Except Panic γ)) :
    task.Rest (next answer)
  /-- It has started a thread. -/
  | started {work : Act μ β} {thread : Thread} {other : World μ → Progress μ Unit}
      {w w' : World μ} {next : World μ → Progress μ β} (rest : task.Rest work)
      (stops : work w = .starting thread other w' next) : task.Rest next

namespace Progress

/-- What is remembered of the work of a thread up to where it has stopped. -/
def deeds (thread : Thread) : Progress μ α → List Deed
  | .done _ w =>
    match thread with
    | .client _ => []
    | .toolkit c => (((w.contexts[c]?).bind Context.current).toList).map fun k => .finished (c, k)
  | .leaving c k _ _ _ | .calling c k _ _ _ _ => [.accepted (c, k)]
  | .awaiting .. | .starting .. => []

/-- The task for whose result the work of a thread has stopped. -/
def errands (thread : Thread) (caller : Except Panic α → Option (Strand μ)) :
    Progress μ α → List (Errand μ)
  | .calling c k bound task w next => [⟨c, k, task, thread, next, caller, w.after bound⟩]
  | _ => []

end Progress

/-! ### Turns -/

/-- A schedule with its past. -/
structure Timeline (μ : Type) extends Schedule μ where
  /-- What was done, in order. -/
  past : List Deed
  /-- The tasks that were called for, in order. -/
  errands : List (Errand μ)

namespace Timeline

variable {s s' s'' : Timeline μ}

/-- The world with what was done before. -/
def moment (s : Timeline μ) : Moment μ := ⟨s.past, s.world⟩

/-- A world with nothing in it, in which a thread begins its work. -/
def start (memory : μ) (work : Act μ Unit) : Timeline μ := ⟨.start (.empty memory) work, [], []⟩

/-- A thread works until it stops. -/
def works (s : Timeline μ) : Strand μ → Timeline μ
  | .mk thread work caller =>
    let progress := work { s.world with thread := thread }
    { toSchedule := s.toSchedule.resume (.mk thread work caller)
      past := s.past ++ progress.deeds thread
      errands := s.errands ++ progress.errands thread caller }

theorem works_mk (s : Timeline μ) (thread : Thread) (work : Act μ β)
    (caller : Except Panic β → Option (Strand μ)) :
    s.works (.mk thread work caller) =
      { toSchedule := .take { s.toAgenda with running := none } thread caller
          (work { s.world with thread := thread })
        past := s.past ++ (work { s.world with thread := thread }).deeds thread
        errands := s.errands ++
          (work { s.world with thread := thread }).errands thread caller } := rfl

/-- A context takes what is next for it. -/
def serves (s : Timeline μ) (c : ContextId) : Timeline μ :=
  { s with
    toSchedule := s.toSchedule.serve c
    past := s.past ++
      (((s.world.contexts[c]?).map Context.beginning).getD []).map fun k => .began (c, k) }

/-- What can come next. -/
inductive Turn : Timeline μ → Timeline μ → Prop where
  /-- The thread that goes on works. -/
  | works {s : Timeline μ} {strand : Strand μ} (running : s.running = some strand) :
    Turn s (s.works strand)
  /-- It stands back behind the others. -/
  | yields {s : Timeline μ} {strand : Strand μ} (running : s.running = some strand) :
    Turn s { s with running := none, ready := s.ready ++ [strand] }
  /-- A thread that can go on does. -/
  | resumes {s : Timeline μ} {strand : Strand μ} {before after : List (Strand μ)}
      (free : s.running = none) (ready : s.ready = before ++ strand :: after) :
    Turn s { s with running := some strand, ready := before ++ after }
  /-- A context whose thread is free takes what is next for it. -/
  | serves {s : Timeline μ} {c : ContextId} {context : Context Ticket} (free : s.running = none)
      (hc : s.world.contexts[c]? = some context) (due : context.isDue = true) :
    Turn s (s.serves c)
  /-- A thread goes on that has what it waited for. -/
  | wakes {s : Timeline μ} {z : Sleeper μ} {before after : List (Sleeper μ)}
      (free : s.running = none) (asleep : s.asleep = before ++ z :: after)
      (holds : z.holds s.world = true) :
    Turn s { s with running := some (z.next true), asleep := before ++ after }
  /-- A thread goes on that has waited long enough. -/
  | givesUp {s : Timeline μ} {z : Sleeper μ} {before after : List (Sleeper μ)}
      (free : s.running = none) (asleep : s.asleep = before ++ z :: after)
      (due : ∀ deadline, z.deadline = some deadline → deadline ≤ s.world.clock) :
    Turn s { s with running := some (z.next false), asleep := before ++ after }
  /-- Time goes by. -/
  | passes {s : Timeline μ} {now : Instant} (later : s.world.clock ≤ now) :
    Turn s { s with world := { s.world with clock := now } }

/-- Any number of turns, one after the other. -/
def Reaches : Timeline μ → Timeline μ → Prop := Relation.ReflTransGen Turn

theorem Reaches.refl (s : Timeline μ) : s.Reaches s := Relation.ReflTransGen.refl

theorem Turn.reaches (h : s.Turn s') : s.Reaches s' := Relation.ReflTransGen.single h

theorem Reaches.trans (h : s.Reaches s') (h' : s'.Reaches s'') : s.Reaches s'' :=
  Relation.ReflTransGen.trans h h'

/-- What every turn keeps holds at every later time. -/
theorem Reaches.keeps {P : Timeline μ → Prop} (later : s.Reaches s') (h : P s)
    (turn : ∀ {s s' : Timeline μ}, s.Turn s' → P s → P s') : P s' := by
  induction later with
  | refl => exact h
  | tail _ last ih => exact turn last ih

/-! ### The schedule -/

/-- The first sleeper for which something is so wakes. -/
theorem reaches_wake {which : Sleeper μ → Bool} {holds : Bool} {next : Schedule μ}
    (h : s.toSchedule.wake? which holds = some next)
    (turn : ∀ z before after, s.asleep = before ++ z :: after → which z = true →
      s.Turn { s with running := some (z.next holds), asleep := before ++ after }) :
    ∃ s' : Timeline μ, s.Reaches s' ∧ s'.toSchedule = next := by
  obtain ⟨z, found, rfl⟩ := Option.map_eq_some_iff.1 h
  obtain ⟨hz, before, after, split, others⟩ := List.find?_eq_some_iff_append.1 found
  refine ⟨_, (turn z before after split hz).reaches, ?_⟩
  have erased : s.asleep.eraseP which = before ++ after := by
    rw [split, List.eraseP_append_right _ fun a ha => by simpa using others a ha,
      List.eraseP_cons_of_pos hz]
  rw [← erased]

/-- The clock moves on to the first moment at which someone has waited long enough. -/
theorem reaches_pass {next : Schedule μ} (free : s.running = none)
    (h : s.toSchedule.pass? = some next) : ∃ s' : Timeline μ, s.Reaches s' ∧ s'.toSchedule = next := by
  let first := (s.asleep.filterMap Sleeper.deadline).min?
  let now := max s.world.clock (first.getD s.world.clock)
  let later : Timeline μ := { s with world := { s.world with clock := now } }
  have passes : s.Turn later := .passes (Nat.le_max_left _ _)
  obtain ⟨s', goes, e⟩ := reaches_wake (s := later) h fun z before after split which => by
    refine .givesUp free split fun deadline due => ?_
    have same : z.deadline = first := eq_of_beq which
    have now : later.world.clock = max s.world.clock (first.getD s.world.clock) := rfl
    rw [now, ← same, due]
    exact Nat.le_max_right _ _
  exact ⟨s', passes.reaches.trans goes, e⟩

/-- What the schedule does next is some turns of the timeline. -/
theorem reaches_move (s : Timeline μ) :
    ∃ s' : Timeline μ, s.Reaches s' ∧ s'.toSchedule = s.toSchedule.move := by
  unfold Schedule.move
  cases running : s.running with
  | some strand =>
    refine ⟨s.works strand, (Turn.works running).reaches, ?_⟩
    cases strand
    rfl
  | none =>
    cases serve : s.toSchedule.serve? with
    | some next =>
      obtain ⟨c, found, rfl⟩ := Option.map_eq_some_iff.1 serve
      obtain ⟨there, due, -⟩ := List.findIdx?_eq_some_iff_getElem.1 found
      have due := (Bool.and_eq_true_iff.1 due).1
      exact ⟨s.serves c, (Turn.serves running (List.getElem?_eq_getElem there) due).reaches, rfl⟩
    | none =>
      cases resume : s.toSchedule.resume? with
      | some next =>
        unfold Schedule.resume? at resume
        split at resume
        · cases resume
        · rename_i strand rest ready
          cases resume
          have split : s.ready = [] ++ strand :: rest := ready
          exact ⟨_, (Turn.resumes running split).reaches, rfl⟩
      | none =>
        cases wake : s.toSchedule.wake? (fun z => z.holds s.world) true with
        | some next =>
          exact reaches_wake wake fun z before after split holds => .wakes running split holds
        | none =>
          cases pass : s.toSchedule.pass? with
          | none => exact ⟨s, .refl s, rfl⟩
          | some next => exact reaches_pass running pass

end Timeline

/-! ### Where timelines begin -/

/-- What those who hold contexts do to them other than handing tasks over. -/
inductive Context.Tended : List (Context Ticket) → List (Context Ticket) → Prop where
  /-- A context is started. -/
  | spawn (contexts : List (Context Ticket)) {config : Config} {context : Context Ticket}
      (h : Context.spawn config = .ok context) : Tended contexts (contexts ++ [context])
  /-- A context is stopped. -/
  | stop (contexts : List (Context Ticket)) (c : ContextId) :
    Tended contexts (contexts.modify c Context.stop)
  /-- Someone waits for the exit of a thread. -/
  | join (contexts : List (Context Ticket)) (c : ContextId) :
    Tended contexts (contexts.modify c (·.join.2))

/-- Contexts are tended, and nothing else is done to them; tickets and threads are given out in no
other way than by handing tasks over and by starting threads, and the clock is not touched. -/
structure World.Tends (w w' : World μ) : Prop where
  contexts : Relation.ReflTransGen Context.Tended w.contexts w'.contexts
  tickets : w'.tickets = w.tickets
  clients : w'.clients = w.clients
  clock : w'.clock = w.clock

/-- Whatever else a thread does, it does no more than this to contexts. -/
def Conduct.regular : Conduct μ := ⟨fun _ => True, World.Tends⟩

theorem World.Tends.refl (w : World μ) : w.Tends w := ⟨.refl, rfl, rfl, rfl⟩

theorem Conduct.regular_plain : (regular : Conduct μ).Plain :=
  ⟨fun _ => .refl _, fun _ _ along => { along.leaves with }⟩

/-- Until a thread hands a task over, the clock stands still for it. -/
theorem Conduct.clock_of_hands {c : ContextId} {k : Ticket} {w₀ w : World μ}
    (h : Conduct.regular.Hands c k w₀ w) : w.clock = w₀.clock := by
  obtain ⟨w₁, along, accepts⟩ := h
  exact accepts.clock.trans along.leaves.clock

mutual

/-- A strand keeps to a conduct, and so does who waits for its result. -/
def Strand.Keeps (C : Conduct μ) : Strand μ → Prop
  | .mk thread work caller => ∀ w, w.thread = thread → C.Finds w →
    (work w).Keeps C (fun _ result => Strand.WaiterKeeps C (caller result)) w

/-- Who waits for a result, if someone does, keeps to a conduct. -/
def Strand.WaiterKeeps (C : Conduct μ) : Option (Strand μ) → Prop
  | none => True
  | some strand => strand.Keeps C

end

theorem Strand.keeps_iff {C : Conduct μ} {thread : Thread} {work : Act μ β}
    {caller : Except Panic β → Option (Strand μ)} : (Strand.mk thread work caller).Keeps C ↔
      ∀ w, w.thread = thread → C.Finds w →
        (work w).Keeps C (fun _ result => Strand.WaiterKeeps C (caller result)) w := by
  rw [Strand.Keeps]

@[simp] theorem Strand.waiterKeeps_none {C : Conduct μ} : Strand.WaiterKeeps C none := by
  rw [Strand.WaiterKeeps]
  trivial

@[simp] theorem Strand.waiterKeeps_some {C : Conduct μ} {strand : Strand μ} :
    Strand.WaiterKeeps C (some strand) ↔ strand.Keeps C := by
  rw [Strand.WaiterKeeps]

/-- Nobody waits for the result of a task that keeps to a conduct. -/
theorem Strand.keeps_of_nobody {C : Conduct μ} {thread : Thread} {work : Act μ β}
    (h : ∀ w, w.thread = thread → C.Finds w → (work w).Keeps C (fun _ _ => True) w) :
    (Strand.mk thread work fun _ => none).Keeps C :=
  Strand.keeps_iff.2 fun w here found => (h w here found).mono fun _ _ _ => waiterKeeps_none

/-- A thread may start a context, and go on with what is usual. -/
theorem Strand.regular_of_spawn {config : Config} {context : Context Ticket}
    (h : Context.spawn config = .ok context) {thread : Thread} {rest : Act μ Unit}
    (usual : rest.Keeps (Conduct.regular : Conduct μ) (fun _ => True) fun _ => True) :
    (Strand.mk thread (do
      modify fun w => { w with contexts := w.contexts ++ [context] }
      rest) fun _ => none).Keeps .regular := by
  refine Strand.keeps_of_nobody fun w _ _ => ?_
  have along : Conduct.regular.Along w { w with contexts := w.contexts ++ [context] } :=
    ⟨rfl, .single (.spawn _ h), rfl, rfl, rfl⟩
  exact (usual.keeps along).progress.mono fun _ _ _ => trivial

/-- A timeline that can come to be: at first there is nothing, and one thread begins to do whatever
it does, with as many contexts and other threads as it starts. -/
def Timeline.Lived (s : Timeline μ) : Prop :=
  ∃ memory work, (Strand.mk (.client 0) work fun _ => none).Keeps .regular ∧
    (start memory work).Reaches s

end TableAccess
