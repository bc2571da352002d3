import TableAccess.Proofs.HandOffs
import TableAccess.Proofs.ScopedRequests

/-!
# Contexts that go on serving

No request does anything to a context but to hand tasks over to it, whatever tables answer. A task
ends in one way for the context, with a value or with a panic: the thread is free, the task is not
pending any more, and whatever waits first is next.

## The model

* `Conduct.quiet` — contexts are left alone until something is handed over.
* `Scope.any_steps_of_rests` — who does nothing to contexts may do anything to tables, peers, trees and bridges.
* `Request.quiet`, `Request.regular` — all requests keep to that.
* `Timeline.Freed` — a context after a task; `Lived.freed` — it is so however the task has ended.
-/

namespace TableAccess

variable {μ α : Type}

/-! ### Requests leave contexts alone -/

/-- Contexts and the clock are as they were; no ticket is given out, and no thread is started. -/
structure World.Rests (w w' : World μ) : Prop where
  contexts : w'.contexts = w.contexts
  tickets : w'.tickets = w.tickets
  clients : w'.clients = w.clients
  clock : w'.clock = w.clock

/-- Contexts are left alone until something is handed over. -/
def Conduct.quiet : Conduct μ := ⟨fun _ => True, World.Rests⟩

/-- Whatever comes up in requests keeps to a conduct that leaves it to others what is done to tables,
peers, trees and bridges. -/
theorem Scope.any_steps_of_rests {C : Conduct μ} (plain : C.Plain)
    (rests : ∀ {w₀ w w' : World μ}, C.Along w₀ w → w.Rests w' → C.Leaves w₀ w') : any.Steps C :=
  any_steps plain (fun along _ _ => rests along ⟨rfl, rfl, rfl, rfl⟩)
    (fun along _ _ => rests along ⟨rfl, rfl, rfl, rfl⟩) (fun along _ _ => rests along ⟨rfl, rfl, rfl, rfl⟩)
    fun along _ _ => rests along ⟨rfl, rfl, rfl, rfl⟩

theorem Scope.quiet_steps : any.Steps (Conduct.quiet : Conduct μ) :=
  any_steps_of_rests ⟨fun _ => ⟨rfl, rfl, rfl, rfl⟩, fun _ _ along => { along.leaves with }⟩
    fun along rests => ⟨rests.contexts.trans along.leaves.contexts,
      rests.tickets.trans along.leaves.tickets, rests.clients.trans along.leaves.clients,
      rests.clock.trans along.leaves.clock⟩

theorem Scope.regular_steps : any.Steps (Conduct.regular : Conduct μ) :=
  any_steps_of_rests Conduct.regular_plain fun along rests =>
    ⟨rests.contexts ▸ along.leaves.contexts, rests.tickets.trans along.leaves.tickets,
      rests.clients.trans along.leaves.clients, rests.clock.trans along.leaves.clock⟩

namespace Request

/-- Whatever is requested, contexts are left alone until something is handed over. -/
theorem quiet {request : Request} (kind : request.OfTable) :
    request.act.Keeps (Conduct.quiet : Conduct μ) (fun _ => True) fun _ => True :=
  (Scope.open_any.deeds Scope.quiet_steps).request (Scope.open_any.admits kind fun _ _ _ => trivial)

/-- A thread may make any request in a timeline that can come to be. -/
theorem regular {request : Request} (kind : request.OfTable) (thread : Thread) :
    (Strand.mk thread (request.act : Act μ _) fun _ => none).Keeps .regular := by
  refine Strand.keeps_of_nobody fun w here _ => ?_
  have keeps : request.act.Keeps (Conduct.regular : Conduct μ) (fun _ => True) fun _ => True :=
    (Scope.open_any.deeds Scope.regular_steps).request (Scope.open_any.admits kind fun _ _ _ => trivial)
  exact (keeps.keeps (Conduct.regular_plain.along trivial)).progress.mono fun _ _ _ => trivial

end Request

/-! ### Tasks that end -/

theorem Schedule.serve_world (s : Schedule μ) (c : ContextId) :
    (s.serve c).world = s.world.modifyContext c Context.next := by
  unfold serve
  dsimp only
  split <;> rfl

namespace Timeline

variable {s : Timeline μ} {c : ContextId} {context : Context Ticket}

/-- A context whose task has ended. When the task was over it was `context`. -/
structure Freed (s : Timeline μ) (c : ContextId) (context freed : Context Ticket) : Prop where
  /-- It is there, -/
  there : s.world.contexts[c]? = some freed
  /-- takes tasks if it did before, -/
  running : freed.running = context.running
  /-- and has kept those that wait. -/
  queue : freed.queue = context.queue
  /-- Its thread is free, -/
  idle : freed.current = none
  /-- and has not left. -/
  stays : freed.exited = false
  /-- The task is not pending any more, -/
  counted : freed.pending + 1 = context.pending
  /-- and those that are wait. -/
  pending : freed.pending = freed.waiting.length
  /-- The one that waits first can be begun as soon as nobody is working. -/
  serves : ∀ {k : Ticket} {rest : List (Message Ticket)}, freed.queue = .run k :: rest →
    s.running = none ∧ s.Turn (s.serves c) ∧ (s.serves c).world.current c = some k

/-- A free thread takes the task that waits first. -/
theorem serves_first {k : Ticket} {rest : List (Message Ticket)} (free : s.running = none)
    (hc : s.world.contexts[c]? = some context) (idle : context.current = none)
    (stays : context.exited = false) (queue : context.queue = .run k :: rest) :
    s.Turn (s.serves c) ∧ (s.serves c).world.current c = some k := by
  refine ⟨.serves free hc ?_, ?_⟩
  · simp [Context.isDue, idle, stays, queue]
  · show (s.toSchedule.serve c).world.current c = some k
    rw [s.toSchedule.serve_world c, World.current_modifyContext hc, if_pos rfl]
    simp [Context.next, idle, stays, queue]

/-- However a task has ended, with a value or with a panic, its context goes on serving. -/
theorem Lived.freed (h : s.Lived) {work : Act μ α} {result : Except Panic α} {w : World μ}
    {caller : Except Panic α → Option (Strand μ)}
    (running : s.running = some (.mk (.toolkit c) work caller))
    (done : work { s.world with thread := .toolkit c } = .done result w) :
    ∃ context, w.contexts[c]? = some context ∧
      (s.works (.mk (.toolkit c) work caller)).Freed c context context.finish := by
  obtain ⟨k, busy, -, agenda, -⟩ := h.orderly.schedule_of_done running done
  obtain ⟨vacated, fits, -⟩ := h.orderly.vacated running
  have keeps := Strand.keeps_iff.1 (fits.keeps false) { s.world with thread := .toolkit c } rfl trivial
  rw [done] at keeps
  have left := keeps.1.leaves
  have tends : s.world.Tends w := { left with }
  obtain ⟨context, hc, current⟩ := Option.bind_eq_some_iff.1 ((tends.current c).trans busy)
  have ledger := ((vacated.tends tends).booked c).ledger hc
  have stays : context.exited = false := by
    by_contra left
    have gone := (ledger.gone (by simpa using left)).2.2
    cases gone.symm.trans current
  have world : (s.works (.mk (.toolkit c) work caller)).world = w.modifyContext c Context.finish := by
    rw [works_mk, done]
    rfl
  have there : (s.works (.mk (.toolkit c) work caller)).world.contexts[c]? = some context.finish := by
    rw [world]
    simp [World.modifyContext, hc]
  have free : (s.works (.mk (.toolkit c) work caller)).running = none := by
    have same := congrArg Agenda.running agenda
    refine same.trans ?_
    unfold Agenda.answer
    split <;> rfl
  have counted : context.pending = context.waiting.length + 1 := by
    rw [ledger.pending, current]
    rfl
  refine ⟨context, hc, there, rfl, rfl, rfl, stays, ?_, ?_, fun queue => ?_⟩
  · show context.pending - 1 + 1 = context.pending
    omega
  · show context.pending - 1 = context.waiting.length
    omega
  · exact ⟨free, serves_first free there rfl stays queue⟩

end Timeline

end TableAccess
