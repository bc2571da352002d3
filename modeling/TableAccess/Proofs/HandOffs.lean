import TableAccess.Proofs.Queries
import TableAccess.Proofs.Turns

/-!
# What a hand-off is told

A caller that hands a task over from another thread is told what has become of it. It is refused at
once, and then the task is nowhere; or the task is accepted, and the caller waits. If the task ends
while it waits, what the caller is told is what the task itself came to. If it gives up before that,
the task stays where it is and is run all the same, and nobody is told what it comes to.

## The model

* `HandOffRefused` — what a hand-off that is refused comes to at once.
* `Errand.Turns` — what a turn can make of a call that waits.
* `Errand.Followed` — what becomes of a call from some time on.
* `hand_off_tells_what_happened` — the main statement.
-/

namespace TableAccess

variable {μ α β : Type} {s s' : Timeline μ} {c : ContextId} {w : World μ} {context : Context Ticket}

/-! ### What a hand-off comes to at once -/

/-- A context that does not accept the task: the caller is told at once, as it would be with any
other task, and nothing was done to contexts. -/
structure HandOffRefused (α : Type) (c : ContextId) (bound : Option Duration) (w w' : World μ)
    (u : Unavailable) : Prop where
  /-- The context is stopped, or there is none; or its queue is full. -/
  reason : (u = .contextStopped ∧
      ∀ context, w.contexts[c]? = some context → context.running = false) ∨
    u = .queueFull ∧ ∃ context, w.contexts[c]? = some context ∧ context.running = true ∧
      ¬context.HasRoom
  /-- The contexts are as they were. -/
  contexts : w'.contexts = w.contexts
  /-- No ticket was given out. -/
  tickets : w'.tickets = w.tickets
  /-- The caller is told. -/
  answer : ∀ work : Act μ α, handOff c bound work w = .done (.ok (.error u)) w'

/-- What is submitted to a context that runs is accepted if there is room. -/
theorem Context.accept_of_running {τ : Type} {context : Context τ} (running : context.running = true)
    (task : τ) : if context.HasRoom then ∃ accepted, context.accept task = .ok accepted
      else context.accept task = .error .full := by
  unfold accept
  rw [running]
  split
  · exact ⟨_, rfl⟩
  · rfl

/-- A context that does not accept a task says why. -/
theorem handOff_refused (α : Type) (bound : Option Duration) (off : w.thread ≠ .toolkit c)
    (refuses : ∀ context, w.contexts[c]? = some context →
      context.running = false ∨ ¬context.HasRoom) :
    ∃ w' u, HandOffRefused α c bound w w' u := by
  by_cases runs : ∃ context, w.contexts[c]? = some context ∧ context.running = true
  · obtain ⟨context, hc, running⟩ := runs
    have full := (refuses context hc).resolve_left (by simp [running])
    have refuses := Context.accept_of_running running w.tickets
    rw [if_neg full] at refuses
    exact ⟨(w.tell (.span .handOff)).tell (.queueFull context.name), .queueFull,
      .inr ⟨rfl, context, hc, running, full⟩, rfl, rfl, fun work =>
      handOff_of_refused bound off work hc refuses⟩
  · have stopped : ∀ context, w.contexts[c]? = some context → context.running = false :=
      fun context hc => by simpa using fun running => runs ⟨context, hc, running⟩
    refine ⟨w.tell (.span .handOff), .contextStopped, .inl ⟨rfl, stopped⟩, rfl, rfl, fun work => ?_⟩
    cases hc : w.contexts[c]? with
    | none => exact handOff_of_absent bound work hc
    | some context => exact handOff_of_refused bound off work hc (Context.accept_of_stopped (stopped context hc) _)

/-! ### What becomes of a call -/

namespace Errand

/-- What a turn can make of a call that waits: it goes on waiting, or it is told what the task itself
came to, which ends in this turn, or it gives up when its time is over, and then the task is not
finished and stays where it is. -/
inductive Turns (errand : Errand μ) (s s' : Timeline μ) : Prop where
  /-- It goes on waiting. -/
  | waits (asleep : errand.sleeper ∈ s'.asleep)
      (unfinished : errand.ticket ∉ s'.moment.finished errand.context)
  /-- The task ends, and the caller can go on with what it came to. -/
  | answered {work : Act μ errand.β} {result : Except Panic errand.β} {w : World μ}
      (running : s.running = some (errand.strand work)) (rest : errand.task.Rest work)
      (ends : work { s.world with thread := .toolkit errand.context } = .done result w)
      (finished : s'.moment.finished errand.context =
        s.moment.finished errand.context ++ [errand.ticket])
      (goesOn : s'.ready = s.ready ++ [errand.goesOn (some result)])
      (left : errand.sleeper ∉ s'.asleep)
  /-- The caller goes on without an answer. -/
  | gaveUp (due : errand.deadline ≤ s.world.clock)
      (unfinished : errand.ticket ∉ s.moment.finished errand.context)
      (goesOn : s'.running = some (errand.goesOn none)) (left : errand.sleeper ∉ s'.asleep)
      (world : s'.world = s.world) (tasks : s'.left = s.left)

/-- What becomes of a call from some time on. -/
structure Followed (errand : Errand μ) (s₁ : Timeline μ) : Prop where
  /-- The caller waits. -/
  waits : errand.sleeper ∈ s₁.asleep
  /-- While it waits, every turn makes of it what it can. -/
  told : ∀ {s s' : Timeline μ}, s₁.Reaches s → s.Turn s' → errand.sleeper ∈ s.asleep →
    errand.Turns s s'
  /-- Once it has gone on it never waits for this task again, -/
  gone : ∀ {s s' : Timeline μ}, s₁.Reaches s → s.Turn s' → errand.sleeper ∉ s.asleep →
    errand.sleeper ∉ s'.asleep
  /-- and what the task comes to is thrown away. -/
  discarded : ∀ {s : Timeline μ} {work : Act μ errand.β} {result : Except Panic errand.β}
    {w : World μ}, s₁.Reaches s → errand.sleeper ∉ s.asleep →
    s.running = some (errand.strand work) →
    work { s.world with thread := .toolkit errand.context } = .done result w →
    s.world.current errand.context = some errand.ticket →
    (s.works (errand.strand work)).toAgenda = { s.toAgenda with running := none }
  /-- The task is accepted once, and begun and finished at most once, -/
  once : ∀ {s : Timeline μ}, s₁.Reaches s →
    (s.moment.accepted errand.context).count errand.ticket = 1 ∧
      (s.moment.begun errand.context).count errand.ticket ≤ 1 ∧
      (s.moment.finished errand.context).count errand.ticket ≤
        (s.moment.begun errand.context).count errand.ticket
  /-- it waits in the queue or is under way until it is finished, -/
  kept : ∀ {s : Timeline μ}, s₁.Reaches s →
    errand.ticket ∉ s.moment.finished errand.context →
    errand.ticket ∈ s.world.waiting errand.context ∨
      s.world.current errand.context = some errand.ticket
  /-- and it has been finished when the thread of the context is gone. -/
  runs : ∀ {s : Timeline μ} {context : Context Ticket}, s₁.Reaches s →
    s.world.contexts[errand.context]? = some context → context.exited = true →
    (s.moment.finished errand.context).count errand.ticket = 1

end Errand

theorem Schedule.serve_asleep (s : Schedule μ) (c : ContextId) : (s.serve c).asleep = s.asleep := by
  unfold serve
  dsimp only
  split <;> rfl

namespace Timeline

/-- What was called stays called. -/
theorem Turn.errands (h : s.Turn s') : s.errands <+: s'.errands := by
  cases h with
  | @works strand running =>
    cases strand
    exact List.prefix_append _ _
  | _ => exact List.prefix_rfl

theorem Reaches.errands (h : s.Reaches s') : s.errands <+: s'.errands :=
  h.keeps (P := fun s' => s.errands <+: s'.errands) List.prefix_rfl
    fun turn before => before.trans turn.errands

theorem Lived.reaches (h : s.Lived) (later : s.Reaches s') : s'.Lived := by
  obtain ⟨memory, work, keeps, before⟩ := h
  exact ⟨memory, work, keeps, before.trans later⟩

/-- Whoever goes on does to contexts what it may. -/
theorem Lived.running_keeps (h : s.Lived) {thread : Thread} {work : Act μ β}
    {caller : Except Panic β → Option (Strand μ)} (running : s.running = some (.mk thread work caller)) :
    (work { s.world with thread := thread }).Keeps .regular
      (fun _ result => Strand.WaiterKeeps .regular (caller result))
      { s.world with thread := thread } := by
  obtain ⟨-, fits, -⟩ := h.orderly.vacated running
  exact Strand.keeps_iff.1 (fits.keeps false) { s.world with thread := thread } rfl trivial

/-- Whoever comes to a hand-off that is accepted has come there while the clock stood still. -/
theorem Lived.clock_of_accepted {γ : Type} (h : s.Lived) {thread : Thread} {work : Act μ β}
    {caller : Except Panic β → Option (Strand μ)} {bound : Option Duration} {task : Act μ γ}
    {rest : Except Panic (Except Unavailable γ) → Act μ β} {accepted : Context Ticket}
    (running : s.running = some (.mk thread work caller)) (off : w.thread ≠ .toolkit c)
    (hc : w.contexts[c]? = some context) (ok : context.accept w.tickets = .ok accepted)
    (comes : work { s.world with thread := thread } = ((handOff c bound task).attempt >>= rest) w) :
    w.clock = s.world.clock := by
  have keeps := h.running_keeps running
  rw [comes, Act.bind_apply, Act.attempt] at keeps
  have hands : Conduct.regular.Hands c w.tickets { s.world with thread := thread }
      (w.handed c accepted) := by
    by_cases fits : (bound.getD context.timeout).FitsClock w.clock
    · obtain ⟨next, calls, -⟩ := handOff_calls bound off task hc ok fits
      rw [calls] at keeps
      exact keeps.1
    · rw [handOff_overruns bound off task hc ok fits] at keeps
      exact keeps.1
  exact (Conduct.clock_of_hands hands :)

namespace Orderly

variable {errand : Errand μ}

/-- The thread of a context that is over with its work was at the task under way. -/
theorem schedule_of_done (h : s.Orderly) {work : Act μ α} {result : Except Panic α} {w : World μ}
    {caller : Except Panic α → Option (Strand μ)}
    (running : s.running = some (.mk (.toolkit c) work caller))
    (done : work { s.world with thread := .toolkit c } = .done result w) :
    ∃ k, s.world.current c = some k ∧ (Strand.mk (.toolkit c) work caller).Serves s.errands c k ∧
      (s.works (.mk (.toolkit c) work caller)).toAgenda =
        ({ s.toAgenda with running := none } : Agenda μ).answer (some k) (caller result) ∧
      (s.works (.mk (.toolkit c) work caller)).past = s.past ++ [.finished (c, k)] := by
  obtain ⟨-, fits, -⟩ := h.vacated running
  obtain ⟨k, busy, serves⟩ := fits.serves c rfl
  have keeps := Strand.keeps_iff.1 (fits.keeps false) { s.world with thread := .toolkit c } rfl trivial
  rw [done] at keeps
  have tends := keeps.1.leaves
  have still : w.current c = some k := (tends.current c).trans busy
  obtain ⟨context, hc, current⟩ := Option.bind_eq_some_iff.1 still
  refine ⟨k, busy, serves false, ?_, ?_⟩
  · simp [works_mk, done, Schedule.take, Schedule.finish, hc, current]
  · simp [works_mk, done, Progress.deeds, hc, current]

/-- What the work of the thread that goes on makes of a call that waits. -/
theorem told_works (h : s.Orderly) {strand : Strand μ} (running : s.running = some strand)
    (called : errand ∈ s.errands) (asleep : errand.sleeper ∈ s.asleep) :
    errand.Turns s (s.works strand) := by
  have turn : s.Turn (s.works strand) := .works running
  have waits : errand.sleeper ∈ (s.works strand).asleep → errand.Turns s (s.works strand) :=
    fun still => .waits still ((turn.orderly h).awaits (turn.errands.subset called) still).unfinished
  obtain ⟨thread, work, caller⟩ := strand
  cases stops : work { s.world with thread := thread } with
  | awaiting | calling =>
    refine waits ?_
    rw [works_mk, stops]
    exact List.mem_append_left _ asleep
  | leaving | starting =>
    refine waits ?_
    rw [works_mk, stops]
    exact asleep
  | done result w =>
    cases thread with
    | client n =>
      refine waits ?_
      rw [works_mk, stops]
      exact asleep
    | toolkit c =>
      obtain ⟨k, -, serves, agenda, past⟩ := h.schedule_of_done running stops
      by_cases own : errand.ticket = k
      · subst own
        cases serves with
        | left _ uncalled => exact absurd rfl (uncalled errand called)
        | @called errand' work mem context ticket rest =>
          obtain rfl := h.errand_eq mem called ticket
          rw [Agenda.answer_of_mem (a := { s.toAgenda with running := none }) asleep rfl] at agenda
          refine .answered running rest stops ?_ (congrArg Agenda.ready agenda) fun still => ?_
          · rw [Moment.finished_of_past (m := s.moment) past]
            simp [Deed.finished?]
          · have still := congrArg Agenda.asleep agenda ▸ still
            simpa [Errand.sleeper] using (List.mem_filter.1 still).2
      · refine waits ?_
        rw [agenda]
        have other : errand.sleeper.ticket ≠ some k := fun same => own (Option.some.inj same)
        exact Agenda.mem_asleep_answer (a := { s.toAgenda with running := none }) asleep other _

/-- What a turn makes of a call that waits. -/
theorem told (h : s.Orderly) (turn : s.Turn s') (called : errand ∈ s.errands)
    (asleep : errand.sleeper ∈ s.asleep) : errand.Turns s s' := by
  have waits : errand.sleeper ∈ s'.asleep → errand.Turns s s' := fun still =>
    .waits still ((turn.orderly h).awaits (turn.errands.subset called) still).unfinished
  cases turn with
  | works running => exact h.told_works running called asleep
  | yields | resumes | passes => exact waits asleep
  | @serves c context free hc due =>
    refine waits ?_
    exact (s.toSchedule.serve_asleep c).symm ▸ asleep
  | @wakes z before after free split holds =>
    refine waits ?_
    rw [split, List.mem_append, List.mem_cons] at asleep
    rcases asleep with earlier | rfl | later
    · exact List.mem_append_left _ earlier
    · cases holds
    · exact List.mem_append_right _ later
  | @givesUp z before after free split due =>
    by_cases this_one : errand.sleeper ∈ before ++ after
    · exact waits this_one
    · have own : errand.sleeper = z := by
        rw [split, List.mem_append, List.mem_cons] at asleep
        rcases asleep with earlier | same | later
        · exact absurd (List.mem_append_left _ earlier) this_one
        · exact same
        · exact absurd (List.mem_append_right _ later) this_one
      subst own
      have unfinished := (h.awaits called asleep).unfinished
      exact .gaveUp (due _ rfl) unfinished rfl this_one rfl rfl

/-- A caller that has gone on does not wait for the same task again. -/
theorem gone (h : s.Orderly) (turn : s.Turn s') (called : errand ∈ s.errands)
    (left : errand.sleeper ∉ s.asleep) : errand.sleeper ∉ s'.asleep := by
  cases turn with
  | @works strand running =>
    have once := (Turn.orderly (.works running) h).calledOnce
    obtain ⟨thread, work, caller⟩ := strand
    rw [works_mk] at once ⊢
    cases stops : work { s.world with thread := thread } with
    | awaiting =>
      intro still
      rcases List.mem_append.1 still with before | new
      · exact left before
      · cases List.mem_singleton.1 new
    | calling c k bound task w next =>
      rw [stops] at once
      intro still
      rcases List.mem_append.1 still with before | new
      · exact left before
      · -- the new call has a ticket of its own
        have same : errand.ticket = k :=
          Option.some.inj (congrArg Sleeper.ticket (List.mem_singleton.1 new))
        rw [Progress.errands, List.map_append, List.nodup_append] at once
        exact once.2.2 _ (List.mem_map_of_mem called) k List.mem_cons_self same
    | leaving | starting => exact left
    | done result w =>
      cases thread with
      | client n => exact left
      | toolkit c =>
        exact fun still => left (Agenda.asleep_answer_subset { s.toAgenda with running := none } _ _ still)
  | yields | resumes | passes => exact left
  | @serves c context free hc due =>
    exact fun still => left (s.toSchedule.serve_asleep c ▸ still)
  | @wakes z before after free split _ | @givesUp z before after free split _ =>
    intro still
    refine left ?_
    rw [split, List.mem_append, List.mem_cons]
    exact (List.mem_append.1 still).imp_right .inr

/-- Nobody waits for a task whose caller has gone on already, -/
theorem nobody (h : s.Orderly) (called : errand ∈ s.errands) (left : errand.sleeper ∉ s.asleep) :
    ∀ z ∈ s.asleep, z.ticket ≠ some errand.ticket := by
  intro z mem ticket
  obtain ⟨errand', rfl, awaits⟩ := h.asleep z mem (ticket ▸ rfl)
  obtain rfl := h.errand_eq called awaits.called (Option.some.inj ticket).symm
  exact left mem

/-- and nobody goes on with its result. -/
theorem discarded (h : s.Orderly) (called : errand ∈ s.errands) (left : errand.sleeper ∉ s.asleep)
    {work : Act μ errand.β} {result : Except Panic errand.β} {w : World μ}
    (running : s.running = some (errand.strand work))
    (done : work { s.world with thread := .toolkit errand.context } = .done result w)
    (own : s.world.current errand.context = some errand.ticket) :
    (s.works (errand.strand work)).toAgenda = { s.toAgenda with running := none } := by
  obtain ⟨k, busy, -, agenda, -⟩ := h.schedule_of_done running done
  obtain rfl : k = errand.ticket := Option.some.inj (busy.symm.trans own)
  exact agenda.trans (Agenda.answer_of_nobody _ _ (h.nobody called left))

end Orderly

end Timeline

/-! ### What a hand-off is told -/

/-- What becomes of a task that was called and whose caller waits. -/
theorem Errand.followed {errand : Errand μ} (h : s.Lived) (called : errand ∈ s.errands)
    (waits : errand.sleeper ∈ s.asleep) : errand.Followed s := by
  have orderly : ∀ {s'}, s.Reaches s' → s'.Orderly ∧ errand ∈ s'.errands := fun later =>
    ⟨(h.reaches later).orderly, later.errands.subset called⟩
  refine ⟨waits, fun later turn asleep => ?_, fun later turn left => ?_,
    fun later left running done own => ?_, fun {s'} later => ?_, fun {s'} later unfinished => ?_,
    fun {s' context} later hc exited => ?_⟩
  · exact (orderly later).1.told turn (orderly later).2 asleep
  · exact (orderly later).1.gone turn (orderly later).2 left
  · exact (orderly later).1.discarded (orderly later).2 left running done own
  · obtain ⟨ordered, mem⟩ := orderly later
    have books := ordered.booked errand.context
    refine ⟨List.count_eq_one_of_mem books.once (ordered.accepted errand mem), ?_, ?_⟩
    · exact List.nodup_iff_count_le_one.1 books.begun_nodup errand.ticket
    · rw [books.busy, List.count_append]
      exact Nat.le_add_right _ _
  · obtain ⟨ordered, mem⟩ := orderly later
    have books := ordered.booked errand.context
    have accepted := ordered.accepted errand mem
    rw [books.order, books.busy] at accepted
    rcases List.mem_append.1 accepted with begun | waiting
    · exact .inr (Option.mem_toList.1 ((List.mem_append.1 begun).resolve_left unfinished))
    · exact .inl waiting
  · obtain ⟨ordered, mem⟩ := orderly later
    have books := ordered.booked errand.context
    rw [((books.ledger hc).done exited).1]
    exact List.count_eq_one_of_mem books.once (ordered.accepted errand mem)

theorem Progress.bind_eq_attempt {β : Type} (p : Progress μ α) (f : α → Act μ β) :
    p.bind f = p.attempt.bind (Act.orPanic f) := by
  induction p with
  | done result w => cases result <;> rfl
  | awaiting holds bound w next ih => simp only [bind, attempt, ih]
  | leaving c k task w next _ ih => simp only [bind, attempt, ih]
  | calling c k bound task w next _ ih => simp only [bind, attempt, ih]
  | starting thread task w next _ ih => simp only [bind, attempt, ih]

/-- One act after another: the second one is what is done with all that the first one can end with. -/
theorem Act.bind_eq_attempt {β : Type} (act : Act μ α) (f : α → Act μ β) :
    (act >>= f) = act.attempt >>= orPanic f :=
  funext fun w => (act w).bind_eq_attempt f

/-- A hand-off's result tells exactly what has happened to its task. Let the thread that goes on come
to a hand-off to a context whose thread it is not; `rest` is whatever it does once it is told. Either
the context refuses the task, says why, and has nothing of it; or the clock cannot tell how long the
caller is to wait, and it panics; or the context accepts the task, and what becomes of it from then
on is followed: a value or a panic that the caller is told is the one in which the task itself has
just ended, and a time-out is told when the time is over and the task is not finished, stays where
it is and is run all the same. -/
theorem hand_off_tells_what_happened {β γ : Type} (h : s.Lived) {t : Duration} {thread : Thread}
    {work : Act μ β} {caller : Except Panic β → Option (Strand μ)} {task : Act μ γ}
    {rest : Except Panic (Except Unavailable γ) → Act μ β}
    (running : s.running = some (.mk thread work caller)) (off : w.thread ≠ .toolkit c)
    (comes : work { s.world with thread := thread } =
      ((handOff c (some t) task).attempt >>= rest) w) :
    (∃ w' u, HandOffRefused γ c (some t) w w' u ∧
      work { s.world with thread := thread } = rest (.ok (.error u)) w') ∨
    (¬t.FitsClock s.world.clock ∧ ∃ w', work { s.world with thread := thread } =
      .leaving c w.tickets (task >>= fun _ => pure () : Act μ Unit) w'
        (rest (.error deadlineOverflow))) ∨
    ∃ next : Option (Except Panic γ) → Act μ β,
      (∀ result, next (some result) = rest (.ok (ofWork result))) ∧
      (∀ later, ∃ e, next none later = rest (.ok (.error (.timedOut t))) (later.tell e)) ∧
      (⟨c, w.tickets, task, thread, next, caller, s.world.after t⟩ : Errand μ).Followed
        (s.works (.mk thread work caller)) := by
  by_cases refuses : ∀ context, w.contexts[c]? = some context →
      context.running = false ∨ ¬context.HasRoom
  · obtain ⟨w', u, refused⟩ := handOff_refused γ (some t) off refuses
    refine .inl ⟨w', u, refused, ?_⟩
    rw [comes, Act.bind_apply, Act.attempt, refused.answer task]
    rfl
  · push Not at refuses
    obtain ⟨context, hc, runs, room⟩ := refuses
    have accepts := Context.accept_of_running (by simpa using runs) w.tickets
    rw [if_pos room] at accepts
    obtain ⟨accepted, ok⟩ := accepts
    have clock := h.clock_of_accepted running off hc ok comes
    by_cases fits : t.FitsClock w.clock
    · refine .inr (.inr ?_)
      obtain ⟨next, calls, answered, untold⟩ := handOff_calls (some t) off task hc ok fits
      rw [Act.bind_apply, Act.attempt, calls] at comes
      refine ⟨fun answer later => (next answer later).attempt.bind rest, fun result => ?_,
        fun later => ?_, ?_⟩
      · funext later
        show (next (some result) later).attempt.bind rest = _
        rw [answered]
        rfl
      · obtain ⟨e, told⟩ := untold later
        refine ⟨e, ?_⟩
        show (next none later).attempt.bind rest = _
        rw [told]
        rfl
      · have deadline : (w.handed c accepted).after t = s.world.after t :=
          congrArg (· + t.nanos) clock
        refine Errand.followed (h.reaches (Timeline.Turn.works running).reaches) ?_ ?_
        · rw [Timeline.works_mk, comes, ← deadline]
          exact List.mem_append_right _ (List.mem_singleton_self _)
        · rw [Timeline.works_mk, comes, ← deadline]
          exact List.mem_append_right _ (List.mem_singleton_self _)
    · rw [Act.bind_apply, Act.attempt, handOff_overruns (some t) off task hc ok fits] at comes
      exact .inr (.inl ⟨clock ▸ fits, w.handed c accepted, comes⟩)

/-- Starts a context and hands one task over to it. -/
def handOffOnce : Act Unit Unit := do
  modify fun w => { w with contexts := w.contexts ++ [.start .default] }
  let _ ← handOff 0 (some ⟨1⟩) (pure 7)

theorem handOffOnce_keeps :
    (Strand.mk (.client 0) handOffOnce fun _ => none).Keeps .regular := by
  refine Strand.regular_of_spawn Context.spawn_default ?_
  have task : (pure 7 : Act Unit Nat).Keeps .regular (fun _ => True) fun _ => True := .pure trivial
  exact (Act.Keeps.handOff Conduct.regular_plain task trivial).bind fun _ _ => .pure trivial

/-- There is nothing left of a task that never stops but the task. -/
theorem Act.Rest.of_pure {b : β} {work : Act μ β} (rest : (pure b : Act μ β).Rest work) :
    work = pure b := by
  induction rest with
  | whole => rfl
  | awaited _ stops _ ih | left _ stops ih | called _ stops _ ih | started _ stops ih =>
    rw [ih] at stops
    cases stops

/-- What becomes of the task is followed from the turn of the call on. The context takes it, and the
turn in which it is finished is the one in which the caller can go on with its value. -/
theorem hand_off_tells_what_happened_once : ∃ next : Option (Except Panic Nat) → Act Unit Unit,
    next (some (.ok 7)) = pure () ∧
      let errand : Errand Unit := ⟨0, 0, pure 7, .client 0, next, fun _ => none, 1⟩
      let called := (Timeline.start () handOffOnce).works (.mk (.client 0) handOffOnce fun _ => none)
      errand.Followed called ∧ ∃ begun finished, called.Reaches begun ∧ begun.Turn finished ∧
        begun.moment.finished 0 = [] ∧ finished.moment.finished 0 = [0] ∧
        finished.ready = [errand.goesOn (some (.ok 7))] := by
  have lived : (Timeline.start () handOffOnce).Lived := ⟨_, _, handOffOnce_keeps, .refl _⟩
  have comes : handOffOnce { (Timeline.start () handOffOnce).world with thread := .client 0 } =
      ((handOff 0 (some ⟨1⟩) (pure 7)).attempt >>= Act.orPanic fun _ => pure ())
        { World.empty () with contexts := [.start .default] } := by
    unfold handOffOnce
    rw [Act.modify_bind, Act.bind_eq_attempt]
    rfl
  rcases hand_off_tells_what_happened lived rfl (by simp [World.empty]) comes with
    ⟨_, _, refused, -⟩ | ⟨late, -⟩ | ⟨next, answered, -, followed⟩
  · rcases refused.reason with ⟨-, stopped⟩ | ⟨-, context, hc, -, full⟩
    · exact absurd (stopped _ rfl) (by decide)
    · cases hc
      exact absurd (by decide) full
  · exact absurd (by decide) late
  · refine ⟨next, answered (.ok 7), followed, ?_⟩
    set called := (Timeline.start () handOffOnce).works (.mk (.client 0) handOffOnce fun _ => none)
    have takes : called.Turn (called.serves 0) := .serves rfl rfl (by decide)
    have works : (called.serves 0).Turn ((called.serves 0).works _) := .works rfl
    refine ⟨_, _, takes.reaches, works, rfl, rfl, ?_⟩
    cases followed.told takes.reaches works followed.waits with
    | waits asleep => cases asleep
    | gaveUp due =>
      have early : ¬(1 ≤ 0) := by decide
      exact absurd due early
    | answered _ rest ends _ goesOn _ =>
      rw [rest.of_pure] at ends
      cases ends
      exact goesOn

end TableAccess
