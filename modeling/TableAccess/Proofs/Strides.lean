import TableAccess.Proofs.Serving

/-!
# Tasks done in one stride

A task that never has to stop is done in one turn. Until then it is as a whole where it was put: in the
queue of its context, and from the moment on in which the context takes it, with the context's thread.
Whatever else goes on leaves it there.

## The model

* `Timeline.works_left`, `Timeline.works_ready` — a thread that works leaves all tasks and all threads where they are.
* `Orderly.busy_turn` — a task is under way until its own thread works.
* `Errand.Whole` — nothing of a task was done; `Errand.Begins` — the context's thread is about to do it.
* `Errand.Whole.turn`, `Errand.Whole.reaches` — so it stays until then.
* `Errand.Ends` — the turn in which it is done; `Errand.Begins.ends` — so it is if the task does not stop.
-/

namespace TableAccess

variable {μ α β : Type} {s s' : Timeline μ} {c : ContextId} {k : Ticket}

/-! ### What a turn leaves where it is -/

/-- What is left in queues is left there, and what comes behind it does not depend on it. -/
theorem Schedule.take_left (a : Agenda μ) (thread : Thread)
    (caller : Except Panic β → Option (Strand μ)) (progress : Progress μ β) :
    ∃ more, ∀ left, take { a with left := left } thread caller progress =
      { take a thread caller progress with left := left ++ more } := by
  cases progress with
  | done result w =>
    refine ⟨[], fun left => ?_⟩
    rw [List.append_nil]
    cases thread with
    | client => rfl
    | toolkit c =>
      simp only [take, finish, Agenda.answer]
      split <;> rfl
  | leaving c ticket task w next => exact ⟨_, fun left => rfl⟩
  | calling c ticket bound task w next => exact ⟨_, fun left => rfl⟩
  | awaiting | starting =>
    refine ⟨[], fun left => ?_⟩
    rw [List.append_nil]
    rfl

/-- So it is with threads that can go on. -/
theorem Schedule.take_ready (a : Agenda μ) (thread : Thread)
    (caller : Except Panic β → Option (Strand μ)) (progress : Progress μ β) :
    ∃ more, ∀ ready, take { a with ready := ready } thread caller progress =
      { take a thread caller progress with ready := ready ++ more } := by
  cases progress with
  | done result w =>
    cases thread with
    | client => exact ⟨[], fun ready => by rw [List.append_nil]; rfl⟩
    | toolkit c =>
      simp only [take, finish, Agenda.answer]
      split
      · exact ⟨_, fun ready => rfl⟩
      · exact ⟨[], fun ready => by rw [List.append_nil]⟩
  | starting started task w next => exact ⟨_, fun ready => rfl⟩
  | awaiting | leaving | calling => exact ⟨[], fun ready => by rw [List.append_nil]; rfl⟩

namespace Timeline

theorem works_left (s : Timeline μ) (strand : Strand μ) : ∃ more, ∀ left,
    ({ s with left := left } : Timeline μ).works strand =
      { s.works strand with left := left ++ more } := by
  obtain ⟨thread, work, caller⟩ := strand
  obtain ⟨more, taken⟩ := Schedule.take_left { s.toAgenda with running := none } thread caller
    (work { s.world with thread := thread })
  refine ⟨more, fun left => ?_⟩
  rw [works_mk, works_mk, taken left]

theorem works_ready (s : Timeline μ) (strand : Strand μ) : ∃ more, ∀ ready,
    ({ s with ready := ready } : Timeline μ).works strand =
      { s.works strand with ready := ready ++ more } := by
  obtain ⟨thread, work, caller⟩ := strand
  obtain ⟨more, taken⟩ := Schedule.take_ready { s.toAgenda with running := none } thread caller
    (work { s.world with thread := thread })
  refine ⟨more, fun ready => ?_⟩
  rw [works_mk, works_mk, taken ready]

theorem left_works (s : Timeline μ) (strand : Strand μ) : s.left ⊆ (s.works strand).left := by
  obtain ⟨more, works⟩ := s.works_left strand
  have left := congrArg (fun s : Timeline μ => s.left) (works s.left)
  exact fun entry mem => left ▸ List.mem_append_left more mem

theorem ready_works (s : Timeline μ) (strand : Strand μ) : s.ready ⊆ (s.works strand).ready := by
  obtain ⟨more, works⟩ := s.works_ready strand
  have ready := congrArg (fun s : Timeline μ => s.ready) (works s.ready)
  exact fun strand mem => ready ▸ List.mem_append_left more mem

section Serves

variable {context : Context Ticket}

/-- A context takes a task, which goes on. -/
theorem serves_of_takes (hc : s.world.contexts[c]? = some context) (idle : context.current = none)
    (takes : context.next.current = some k) :
    s.serves c = { s with
      world := s.world.modifyContext c Context.next
      past := s.past ++ [.began (c, k)]
      running := s.left.lookup k
      left := s.left.filter (·.1 != k) } := by
  have looks : ((s.world.modifyContext c Context.next).contexts[c]?).bind Context.current = some k := by
    simp [World.modifyContext, hc, takes]
  unfold serves Schedule.serve
  simp only [looks, hc, Option.map_some, Option.getD_some, Context.beginning, idle, takes]
  rfl

/-- A context takes a request to shut down, or leaves. -/
theorem serves_of_idle (hc : s.world.contexts[c]? = some context) (idle : context.current = none)
    (takes : context.next.current = none) :
    s.serves c = { s with world := s.world.modifyContext c Context.next } := by
  have looks : ((s.world.modifyContext c Context.next).contexts[c]?).bind Context.current = none := by
    simp [World.modifyContext, hc, takes]
  unfold serves Schedule.serve
  simp only [looks, hc, Option.map_some, Option.getD_some, Context.beginning, idle, takes]
  simp

end Serves

theorem serves_ready (s : Timeline μ) (c : ContextId) (ready : List (Strand μ)) :
    ({ s with ready := ready } : Timeline μ).serves c = { s.serves c with ready := ready } := by
  unfold serves Schedule.serve
  dsimp only
  split <;> rfl

theorem ready_serves (s : Timeline μ) (c : ContextId) : (s.serves c).ready = s.ready := by
  have same := congrArg (fun s' : Timeline μ => s'.ready) (s.serves_ready c s.ready)
  exact same

theorem Turn.past (turn : s.Turn s') : s.past <+: s'.past := by
  cases turn with
  | @works strand running =>
    cases strand
    exact List.prefix_append _ _
  | serves => exact List.prefix_append _ _
  | _ => exact List.prefix_rfl

/-- What was done stays done. -/
theorem Reaches.past (later : s.Reaches s') : s.past <+: s'.past :=
  later.keeps (P := fun s' => s.past <+: s'.past) List.prefix_rfl
    fun turn before => before.trans turn.past

theorem Reaches.orderly (later : s.Reaches s') (h : s.Orderly) : s'.Orderly :=
  later.keeps h fun turn orderly => turn.orderly orderly

/-- A task that is under way is not finished. -/
theorem Orderly.unfinished (h : s.Orderly) (busy : s.world.current c = some k) :
    k ∉ s.moment.finished c := by
  intro done
  have once := (h.booked c).begun_nodup
  rw [(h.booked c).busy, List.nodup_append] at once
  exact once.2.2 k done k (Option.mem_toList.2 busy) rfl

/-- Only its own thread finishes a task of a context. -/
theorem Turn.finished (turn : s.Turn s') (c : ContextId) :
    s'.moment.finished c = s.moment.finished c ∨
      ∃ strand, s.running = some strand ∧ strand.thread = .toolkit c ∧ s' = s.works strand := by
  have none_of : ∀ {deeds : List Deed}, s'.past = s.past ++ deeds →
      deeds.filterMap (Deed.finished? c) = [] → s'.moment.finished c = s.moment.finished c := by
    intro deeds past nothing
    have more : s'.moment.finished c = _ := Moment.finished_of_past (m := s.moment) past c
    rw [more, nothing, List.append_nil]
  cases turn with
  | @works strand running =>
    by_cases own : strand.thread = .toolkit c
    · exact .inr ⟨strand, running, own, rfl⟩
    · obtain ⟨thread, work, caller⟩ := strand
      refine .inl (none_of rfl (List.filterMap_eq_nil_iff.2 fun d mem => ?_))
      generalize work { s.world with thread := thread } = progress at mem
      cases progress with
      | awaiting | starting => cases mem
      | leaving | calling =>
        rw [List.mem_singleton.1 mem]
        rfl
      | done result w =>
        cases thread with
        | client => cases mem
        | toolkit c' =>
          obtain ⟨k, -, rfl⟩ := List.mem_map.1 mem
          exact if_neg fun same : c' = c => own (congrArg Thread.toolkit same)
  | serves =>
    refine .inl (none_of rfl (List.filterMap_eq_nil_iff.2 fun d mem => ?_))
    obtain ⟨k, -, rfl⟩ := List.mem_map.1 mem
    rfl
  | _ => exact .inl rfl

/-- A task is under way until the thread of its context works. -/
theorem Orderly.busy_turn (h : s.Orderly) (turn : s.Turn s') (busy : s.world.current c = some k) :
    s'.world.current c = some k ∨
      ∃ strand, s.running = some strand ∧ strand.thread = .toolkit c ∧ s' = s.works strand := by
  refine (turn.finished c).imp_left fun same => ?_
  have books := h.booked c
  have begun : k ∈ s.moment.begun c := by
    rw [books.busy]
    exact List.mem_append_right _ (Option.mem_toList.2 busy)
  have still : k ∈ s'.moment.begun c := (turn.past.filterMap _).subset begun
  rw [((turn.orderly h).booked c).busy, same] at still
  exact Option.mem_toList.1 ((List.mem_append.1 still).resolve_left (h.unfinished busy))

/-- So it is if that thread is among those that can go on. -/
theorem Orderly.busy_of_ready (h : s.Orderly) (turn : s.Turn s') {strand : Strand μ}
    (mem : strand ∈ s.ready) (own : strand.thread = .toolkit c) (busy : s.world.current c = some k) :
    s'.world.current c = some k := by
  refine (h.busy_turn turn busy).resolve_right fun ⟨strand', running, own', _⟩ => ?_
  obtain ⟨-, -, away⟩ := h.vacated running
  refine away (List.mem_map.2 ⟨fun _ => strand, ?_, own.trans own'.symm⟩)
  exact List.mem_append_left _ (List.mem_map_of_mem mem)

end Timeline

/-! ### Where a task is -/

namespace Errand

variable {errand : Errand μ}

/-- The thread of the context is about to do a task. -/
structure Begins (errand : Errand μ) (s : Timeline μ) : Prop where
  /-- The task is under way, -/
  busy : s.world.current errand.context = some errand.ticket
  /-- and the thread goes on with all of it. -/
  running : s.running = some (errand.strand errand.task)

/-- Nothing of a task was done. -/
inductive Whole (errand : Errand μ) (s : Timeline μ) : Prop where
  /-- It waits. -/
  | left (mem : (errand.ticket, errand.strand errand.task) ∈ s.left)
  /-- The thread of the context has stood back before it did anything. -/
  | ready (busy : s.world.current errand.context = some errand.ticket)
      (mem : errand.strand errand.task ∈ s.ready)
  /-- The thread of the context is about to do it. -/
  | begins (begins : errand.Begins s)

/-- A context that takes a task has it do all that was left to do. -/
theorem begins_of_left (h : s.Orderly) (mem : (errand.ticket, errand.strand errand.task) ∈ s.left)
    {context : Context Ticket} (hc : s.world.contexts[c]? = some context)
    (idle : context.current = none) (takes : context.next.current = some errand.ticket) :
    errand.Begins (s.serves c) := by
  have here : errand.context = c := by
    have waits : errand.ticket ∈ s.world.waiting c := by
      obtain ⟨rest, queue, -⟩ := Context.next_of_takes idle takes
      rw [World.waiting_of_getElem? hc, Context.waiting, queue]
      exact List.mem_cons_self
    obtain ⟨strand, there, thread⟩ := h.waits c _ waits
    have same : strand = errand.strand errand.task :=
      congrArg Prod.snd (List.inj_on_of_nodup_map h.leftOnce there mem rfl)
    rw [same] at thread
    exact Thread.toolkit.inj thread
  rw [Timeline.serves_of_takes hc idle takes]
  refine ⟨?_, lookup_of_nodup h.leftOnce mem⟩
  show (s.world.modifyContext c Context.next).current errand.context = _
  rw [World.current_modifyContext hc, if_pos here.symm, takes]

/-- A turn leaves the task where it is, or hands it on as a whole, unless the thread of the context does
it. -/
theorem Whole.turn (whole : errand.Whole s) (h : s.Orderly) (turn : s.Turn s') :
    errand.Whole s' ∨ errand.Begins s ∧ s' = s.works (errand.strand errand.task) := by
  cases whole with
  | left mem =>
    refine .inl ?_
    cases turn with
    | @works strand => exact .left (s.left_works strand mem)
    | @serves c context free hc due =>
      have idle := Context.idle_of_isDue due
      cases takes : context.next.current with
      | none =>
        rw [Timeline.serves_of_idle hc idle takes]
        exact .left mem
      | some k =>
        by_cases own : errand.ticket = k
        · exact .begins (begins_of_left h mem hc idle (own ▸ takes))
        · rw [Timeline.serves_of_takes hc idle takes]
          exact .left (List.mem_filter.2 ⟨mem, bne_iff_ne.2 own⟩)
    | _ => exact .left mem
  | ready busy mem =>
    refine .inl ?_
    have still := h.busy_of_ready turn mem rfl busy
    cases turn with
    | @works strand => exact .ready still (s.ready_works strand mem)
    | yields => exact .ready still (List.mem_append_left _ mem)
    | @resumes strand before after free ready =>
      rw [ready, List.mem_append, List.mem_cons] at mem
      rcases mem with earlier | same | later
      · exact .ready still (List.mem_append_left _ earlier)
      · exact .begins ⟨still, congrArg some same.symm⟩
      · exact .ready still (List.mem_append_right _ later)
    | serves => exact .ready still (s.ready_serves _ ▸ mem)
    | _ => exact .ready still mem
  | begins begins =>
    have busy := h.busy_turn turn begins.busy
    cases turn with
    | works running =>
      cases begins.running.symm.trans running
      exact .inr ⟨begins, rfl⟩
    | yields running =>
      cases begins.running.symm.trans running
      exact .inl (.ready begins.busy (List.mem_append_right _ (List.mem_singleton_self _)))
    | resumes free | serves free | wakes free | givesUp free => cases free.symm.trans begins.running
    | passes => exact .inl (.begins ⟨begins.busy, begins.running⟩)

/-- From the time on at which nothing of a task was done that is so until it is done. -/
theorem Whole.reaches (whole : errand.Whole s) (h : s.Orderly) (later : s.Reaches s') :
    errand.Whole s' ∨ ∃ s₂, s.Reaches s₂ ∧ errand.Begins s₂ ∧
      (s₂.works (errand.strand errand.task)).Reaches s' := by
  induction later with
  | refl => exact .inl whole
  | @tail s₂ s₃ before turn ih =>
    rcases ih with whole | ⟨s₁, reaches, begins, since⟩
    · refine (whole.turn (Timeline.Reaches.orderly before h) turn).imp_right ?_
      rintro ⟨begins, rfl⟩
      exact ⟨s₂, before, begins, .refl _⟩
    · exact .inr ⟨s₁, reaches, begins, since.trans turn.reaches⟩

end Errand

/-! ### The turn in which it is done -/

/-- What a turn comes to in which a task is done. -/
structure Errand.Ends (errand : Errand μ) (result : Except Panic errand.β) (w : World μ)
    (s s' : Timeline μ) : Prop where
  /-- The world is what the task has left, and the context is free. -/
  world : s'.world = w.modifyContext errand.context Context.finish
  /-- The task is finished. -/
  past : s'.past = s.past ++ [.finished (errand.context, errand.ticket)]
  /-- If the caller still waits it can go on with what the task came to; -/
  answered : errand.sleeper ∈ s.asleep → s'.toAgenda = { s.toAgenda with
    running := none
    ready := s.ready ++ [errand.goesOn (some result)]
    asleep := s.asleep.filter (·.ticket != some errand.ticket) }
  /-- if it does not, nobody can. -/
  discarded : errand.sleeper ∉ s.asleep → s'.toAgenda = { s.toAgenda with running := none }

namespace Errand.Begins

variable {errand : Errand μ}

/-- The task finds its context. -/
theorem context (h : errand.Begins s) :
    ∃ context, s.world.contexts[errand.context]? = some context := by
  obtain ⟨context, hc, -⟩ := Option.bind_eq_some_iff.1 h.busy
  exact ⟨context, hc⟩

/-- A task that does not stop is done in one turn. -/
theorem ends (begins : errand.Begins s) (h : s.Orderly) (called : errand ∈ s.errands)
    {result : Except Panic errand.β} {w : World μ}
    (done : errand.task { s.world with thread := .toolkit errand.context } = .done result w) :
    errand.Ends result w s (s.works (errand.strand errand.task)) := by
  obtain ⟨k, busy, -, agenda, past⟩ := h.schedule_of_done begins.running done
  obtain rfl : k = errand.ticket := Option.some.inj (busy.symm.trans begins.busy)
  refine ⟨?_, past, fun waits => agenda.trans ?_,
    fun gone => h.discarded called gone begins.running done begins.busy⟩
  · rw [Errand.strand, Timeline.works_mk, done]
    rfl
  · exact Agenda.answer_of_mem (a := { s.toAgenda with running := none }) waits rfl _

end Errand.Begins

end TableAccess
