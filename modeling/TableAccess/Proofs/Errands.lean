import TableAccess.Proofs.Books
import TableAccess.Proofs.Timeline

/-!
# Errands

At every time the books of all contexts are in order, no thread is in two places, a thread of a
context is at the task under way there, and each caller waits for the task it has called.

## The model

* `World.current`, `World.waiting` — the task under way in a context, and those that wait.
* `Strand.Serves` — a strand is the thread of a context with what is left of a task.
* `Timeline.Orderly` — the invariant; `Orderly.place`, `Orderly.accepts`, … — what keeps it.
-/

namespace TableAccess

variable {μ α β : Type} {s s' : Timeline μ} {c : ContextId} {k : Ticket}

/-! ### What is under way and what waits -/

namespace World

variable {w w' : World μ}

/-- The task under way in a context. -/
def current (w : World μ) (c : ContextId) : Option Ticket := (w.contexts[c]?).bind Context.current

/-- The tasks that wait in a context. -/
def waiting (w : World μ) (c : ContextId) : List Ticket :=
  ((w.contexts[c]?).map Context.waiting).getD []

theorem current_modifyContext {context : Context Ticket} (hc : w.contexts[c]? = some context)
    (f : Context Ticket → Context Ticket) (c' : ContextId) :
    (w.modifyContext c f).current c' = if c = c' then (f context).current else w.current c' := by
  unfold current modifyContext
  rw [List.getElem?_modify]
  by_cases here : c = c'
  · subst here
    simp [hc]
  · simp [here]

theorem waiting_modifyContext {context : Context Ticket} (hc : w.contexts[c]? = some context)
    (f : Context Ticket → Context Ticket) (c' : ContextId) :
    (w.modifyContext c f).waiting c' = if c = c' then (f context).waiting else w.waiting c' := by
  unfold waiting modifyContext
  rw [List.getElem?_modify]
  by_cases here : c = c'
  · subst here
    simp [hc]
  · simp [here]

theorem current_of_getElem? {context : Context Ticket} (hc : w.contexts[c]? = some context) :
    w.current c = context.current := by
  rw [current, hc]
  rfl

theorem waiting_of_getElem? {context : Context Ticket} (hc : w.contexts[c]? = some context) :
    w.waiting c = context.waiting := by
  rw [waiting, hc]
  rfl

end World

theorem Moment.Booked.order {m : Moment μ} (h : m.Booked c) :
    m.accepted c = m.begun c ++ m.world.waiting c := by
  unfold World.waiting
  cases hc : m.world.contexts[c]? with
  | none =>
    obtain ⟨accepted, begun, -⟩ := h.unborn hc
    simp [accepted, begun]
  | some context => exact (h.ledger hc).order

theorem Moment.Booked.busy {m : Moment μ} (h : m.Booked c) :
    m.begun c = m.finished c ++ (m.world.current c).toList := by
  unfold World.current
  cases hc : m.world.contexts[c]? with
  | none =>
    obtain ⟨-, begun, finished⟩ := h.unborn hc
    simp [begun, finished]
  | some context => exact (h.ledger hc).busy

namespace Context.Tended

variable {contexts contexts' : List (Context Ticket)}

/-- Whoever tends contexts neither begins nor ends a task, and takes none out of a queue. -/
theorem kept (h : Tended contexts contexts') (c : ContextId) :
    (contexts'[c]?).bind Context.current = (contexts[c]?).bind Context.current ∧
      ((contexts'[c]?).map Context.waiting).getD [] = ((contexts[c]?).map Context.waiting).getD [] := by
  cases h with
  | @spawn config context h =>
    rw [Context.spawn_eq_ok h]
    rcases Nat.lt_trichotomy c contexts.length with lt | rfl | gt
    · rw [List.getElem?_append_left lt]
      exact ⟨rfl, rfl⟩
    · simp [Context.start, Context.waiting]
    · have absent : contexts[c]? = none := List.getElem?_eq_none (Nat.le_of_lt gt)
      have absent' : (contexts ++ [Context.start config])[c]? = none := by
        rw [List.getElem?_eq_none_iff, List.length_append]
        exact Nat.succ_le_of_lt gt
      rw [absent, absent']
      exact ⟨rfl, rfl⟩
  | stop c' =>
    rw [List.getElem?_modify]
    cases contexts[c]? with
    | none => exact ⟨rfl, rfl⟩
    | some context => by_cases here : c' = c <;> simp [here]
  | join c' =>
    rw [List.getElem?_modify]
    cases contexts[c]? with
    | none => exact ⟨rfl, rfl⟩
    | some context => by_cases here : c' = c <;> simp [here, Context.join, Context.waiting]

end Context.Tended

namespace World.Tends

variable {w w' : World μ}

theorem current (h : w.Tends w') (c : ContextId) : w'.current c = w.current c := by
  unfold World.current
  have tended := h.contexts
  generalize w'.contexts = contexts at tended
  induction tended with
  | refl => rfl
  | tail _ last ih => exact (last.kept c).1.trans ih

theorem waiting (h : w.Tends w') (c : ContextId) : w'.waiting c = w.waiting c := by
  unfold World.waiting
  have tended := h.contexts
  generalize w'.contexts = contexts at tended
  induction tended with
  | refl => rfl
  | tail _ last ih => exact (last.kept c).2.trans ih

end World.Tends

/-- A task that is accepted is not under way yet. -/
theorem World.Accepts.current {w w' : World μ} (h : w.Accepts c k w') (c' : ContextId) :
    w'.current c' = w.current c' := by
  obtain ⟨context, context', hc, ok, contexts⟩ := h.accepts
  obtain ⟨-, grown⟩ := Context.accept_eq_ok ok
  have same : w'.current c' = (w.modifyContext c fun _ => context').current c' := by
    rw [World.current, contexts]
    rfl
  rw [same, World.current_modifyContext hc]
  split
  · rename_i here
    rw [← here, World.current_of_getElem? hc, grown]
  · rfl

namespace Moment.Booked

variable {m : Moment μ} {w : World μ}

/-- Tending contexts keeps their books. -/
theorem tends (h : m.Booked c) (tends : m.world.Tends w) : Booked ⟨m.past, w⟩ c := by
  suffices kept : Booked ⟨m.past, { m.world with contexts := w.contexts }⟩ c from
    kept.of_same ⟨rfl, rfl, rfl⟩ rfl (Nat.le_of_eq tends.tickets.symm)
  have tended := tends.contexts
  generalize w.contexts = contexts at tended
  induction tended with
  | refl => exact h
  | tail _ last ih =>
    rw [← List.append_nil m.past]
    cases last with
    | spawn spawned => exact ih.contextStep (.spawn spawned)
    | stop c' => exact ih.contextStep (.stop c')
    | join c' => exact ih.contextStep (.join c')

end Moment.Booked

/-! ### Strands that serve a context -/

/-- A strand is the thread of a context with what is left of a task, and who waits for the result is
the caller of the task. -/
inductive Strand.Serves (errands : List (Errand μ)) (c : ContextId) (k : Ticket) :
    Strand μ → Prop where
  /-- The task was called. -/
  | called {errand : Errand μ} {work : Act μ errand.β} (mem : errand ∈ errands)
      (context : errand.context = c) (ticket : errand.ticket = k)
      (rest : errand.task.Rest work) : Serves errands c k (errand.strand work)
  /-- The task was left to the context, and nobody waits for it. -/
  | left (work : Act μ Unit) (uncalled : ∀ errand ∈ errands, errand.ticket ≠ k) :
    Serves errands c k (.mk (.toolkit c) work fun _ => none)

namespace Strand.Serves

variable {errands new : List (Errand μ)} {strand : Strand μ} {thread : Thread}
  {work work' : Act μ β} {caller : Except Panic β → Option (Strand μ)}

theorem thread_eq (h : strand.Serves errands c k) : strand.thread = .toolkit c := by
  cases h with
  | called mem context ticket rest => exact congrArg Thread.toolkit context
  | left => rfl

/-- Other tasks may be called. -/
theorem more (h : strand.Serves errands c k) (other : ∀ errand ∈ new, errand.ticket ≠ k) :
    strand.Serves (errands ++ new) c k := by
  cases h with
  | called mem context ticket rest =>
    exact .called (List.mem_append_left _ mem) context ticket rest
  | left work uncalled =>
    exact .left work fun errand mem =>
      (List.mem_append.1 mem).elim (uncalled errand) (other errand)

/-- It goes on with what is left. -/
theorem goesOn (h : (Strand.mk thread work caller).Serves errands c k)
    (rest : ∀ task : Act μ β, task.Rest work → task.Rest work') :
    (Strand.mk thread work' caller).Serves errands c k := by
  cases h with
  | called mem context ticket rest' => exact .called mem context ticket (rest _ rest')
  | left _ uncalled => exact .left work' uncalled

/-- Its result is for the caller of the task. -/
theorem answer (h : (Strand.mk thread work caller).Serves errands c k) (result : Except Panic β) :
    (∃ errand ∈ errands, errand.context = c ∧ errand.ticket = k ∧
      ∃ answer, caller result = some (errand.goesOn answer)) ∨
    caller result = none ∧ ∀ errand ∈ errands, errand.ticket ≠ k := by
  cases h with
  | called mem context ticket rest => exact .inl ⟨_, mem, context, ticket, _, rfl⟩
  | left _ uncalled => exact .inr ⟨rfl, uncalled⟩

end Strand.Serves

/-! ### The invariant -/

/-- Where a thread stands: how it goes on when what it waits for does not hold, and when it does. -/
abbrev Place (μ : Type) := Bool → Strand μ

/-- The thread that stands there. -/
def Place.thread (place : Place μ) : Thread := (place false).thread

/-- Where the threads stand. -/
def Agenda.places (a : Agenda μ) : List (Place μ) :=
  (a.running.toList ++ a.ready).map (fun strand _ => strand) ++ a.asleep.map Sleeper.next

namespace Timeline

/-- A thread stands where it may. -/
structure Fits (s : Timeline μ) (place : Place μ) : Prop where
  /-- It is the same thread however it goes on. -/
  even : ∀ b, (place b).thread = place.thread
  /-- It was started. -/
  known : ∀ n, place.thread = .client n → n < s.world.clients
  /-- It does to contexts what it may. -/
  keeps : ∀ b, (place b).Keeps .regular
  /-- The thread of a context is at the task under way. -/
  serves : ∀ c, place.thread = .toolkit c →
    ∃ k, s.world.current c = some k ∧ ∀ b, (place b).Serves s.errands c k

/-- A caller waits for its task. -/
structure Awaits (s : Timeline μ) (errand : Errand μ) : Prop where
  /-- The task was called. -/
  called : errand ∈ s.errands
  /-- It is not finished. -/
  unfinished : errand.ticket ∉ s.moment.finished errand.context
  /-- If the caller is at a task of its own, that one is what it goes on with. -/
  serves : ∀ c k, errand.thread = .toolkit c → s.world.current c = some k →
    ∀ answer, (errand.goesOn answer).Serves s.errands c k

/-- Books, threads and callers are in order. -/
structure Orderly (s : Timeline μ) : Prop where
  /-- The books of all contexts are. -/
  booked : ∀ c, s.moment.Booked c
  /-- No thread is in two places. -/
  apart : (s.places.map Place.thread).Nodup
  /-- All threads are where they may be. -/
  fits : ∀ place ∈ s.places, s.Fits place
  /-- Who waits for a task has called it. -/
  asleep : ∀ z ∈ s.asleep, z.ticket.isSome → ∃ errand, z = errand.sleeper ∧ s.Awaits errand
  /-- The tasks that were left to contexts were accepted there. -/
  left : ∀ entry ∈ s.left, entry.2.Keeps .regular ∧
    ∃ c, entry.1 ∈ s.moment.accepted c ∧ entry.2.Serves s.errands c entry.1
  /-- None was left twice. -/
  leftOnce : (s.left.map Prod.fst).Nodup
  /-- Every task that waits was left. -/
  waits : ∀ c, ∀ k ∈ s.world.waiting c, ∃ strand, (k, strand) ∈ s.left ∧ strand.thread = .toolkit c
  /-- Tasks that were called were accepted. -/
  accepted : ∀ errand ∈ s.errands, errand.ticket ∈ s.moment.accepted errand.context
  /-- None was called twice. -/
  calledOnce : (s.errands.map Errand.ticket).Nodup

/-- At the beginning there is one thread outside every context. -/
theorem orderly_start {work : Act μ Unit} (memory : μ)
    (h : (Strand.mk (.client 0) work fun _ => none).Keeps .regular) : (start memory work).Orderly where
  booked c := Moment.booked_first memory c
  apart := List.nodup_singleton _
  fits place mem := by
    rw [List.mem_singleton.1 (show place ∈ [fun _ => Strand.mk (.client 0) work fun _ => none] from mem)]
    refine ⟨fun _ => rfl, fun n e => ?_, fun _ => h, fun c e => ?_⟩
    · cases e
      exact Nat.one_pos
    · cases e
  asleep z mem := by cases mem
  left entry mem := by cases mem
  leftOnce := List.nodup_nil
  waits c k mem := by cases mem
  accepted errand mem := by cases mem
  calledOnce := List.nodup_nil

namespace Orderly

/-- The task of a thread of a context is the one under way, if there is one. -/
theorem ticket_lt (h : s.Orderly) (accepted : k ∈ s.moment.accepted c) : k < s.world.tickets :=
  (h.booked c).given k accepted

theorem accepted_of_current (h : s.Orderly) (current : s.world.current c = some k) :
    k ∈ s.moment.accepted c := by
  rw [(h.booked c).order, (h.booked c).busy]
  refine List.mem_append_left _ (List.mem_append_right _ ?_)
  have there : s.moment.world.current c = some k := current
  rw [there]
  exact List.mem_singleton_self k

/-- A task that was called is one errand. -/
theorem errand_eq (h : s.Orderly) {errand errand' : Errand μ} (mem : errand ∈ s.errands)
    (mem' : errand' ∈ s.errands) (same : errand.ticket = errand'.ticket) : errand = errand' :=
  List.inj_on_of_nodup_map h.calledOnce mem mem' same

/-- Who waits for a task it has called does so as it should. -/
theorem awaits (h : s.Orderly) {errand : Errand μ} (called : errand ∈ s.errands)
    (waits : errand.sleeper ∈ s.asleep) : s.Awaits errand := by
  obtain ⟨errand', same, awaits⟩ := h.asleep _ waits rfl
  have ticket : errand.ticket = errand'.ticket := Option.some.inj (congrArg Sleeper.ticket same)
  exact h.errand_eq called awaits.called ticket ▸ awaits

/-- Threads may change places, go on, and take the chances they have. -/
theorem rearrange (h : s.Orderly) (running : Option (Strand μ))
    (ready : List (Strand μ)) (asleep : List (Sleeper μ))
    (apart : (({ s with running, ready, asleep } : Timeline μ).places.map Place.thread).Nodup)
    (chances : ∀ place ∈ ({ s with running, ready, asleep } : Timeline μ).places,
      ∃ old ∈ s.places, ∀ b, ∃ b', place b = old b')
    (sleepers : asleep ⊆ s.asleep) :
    ({ s with running, ready, asleep } : Timeline μ).Orderly := by
  refine { h with apart, fits := fun place mem => ?_, asleep := fun z mem has => ?_ }
  · obtain ⟨old, there, chance⟩ := chances place mem
    have fits := h.fits old there
    have thread : ∀ b, (place b).thread = old.thread := fun b => by
      obtain ⟨b', e⟩ := chance b
      rw [e, fits.even]
    have same : place.thread = old.thread := thread false
    refine ⟨fun b => (thread b).trans same.symm, fun n e => fits.known n (same ▸ e), fun b => ?_,
      fun c e => ?_⟩
    · obtain ⟨b', e⟩ := chance b
      rw [e]
      exact fits.keeps b'
    · obtain ⟨k, current, serves⟩ := fits.serves c (same ▸ e)
      refine ⟨k, current, fun b => ?_⟩
      obtain ⟨b', e'⟩ := chance b
      rw [e']
      exact serves b'
  · obtain ⟨errand, e, awaits⟩ := h.asleep z (sleepers mem) has
    exact ⟨errand, e, awaits.called, awaits.unfinished, awaits.serves⟩

/-- One more thread may come to stand somewhere. -/
theorem place (h : s.Orderly) (running : Option (Strand μ)) (ready : List (Strand μ))
    (asleep : List (Sleeper μ)) {place : Place μ} (fits : s.Fits place)
    (new : place.thread ∉ s.places.map Place.thread)
    (perm : ({ s with running, ready, asleep } : Timeline μ).places.Perm (place :: s.places))
    (sleepers : ∀ z ∈ asleep, z ∈ s.asleep ∨
      (z.ticket.isSome → ∃ errand, z = errand.sleeper ∧ s.Awaits errand)) :
    ({ s with running, ready, asleep } : Timeline μ).Orderly := by
  refine { h with apart := ?_, fits := fun p mem => ?_, asleep := fun z mem has => ?_ }
  · rw [(perm.map Place.thread).nodup_iff, List.map_cons, List.nodup_cons]
    exact ⟨new, h.apart⟩
  · have fits' : s.Fits p := by
      rcases List.mem_cons.1 (perm.mem_iff.1 mem) with rfl | old
      · exact fits
      · exact h.fits p old
    exact ⟨fits'.even, fits'.known, fits'.keeps, fits'.serves⟩
  · obtain ⟨errand, e, awaits⟩ := (sleepers z mem).elim (h.asleep z · has) (· has)
    exact ⟨errand, e, awaits.called, awaits.unfinished, awaits.serves⟩

/-- The thread of a caller stands where it waits. -/
theorem thread_of_awaits (z : Sleeper μ) (errand : Errand μ) (mem : z ∈ s.asleep)
    (e : z = errand.sleeper) : errand.thread ∈ s.places.map Place.thread := by
  subst e
  refine List.mem_map.2 ⟨errand.sleeper.next, ?_, rfl⟩
  exact List.mem_append_right _ (List.mem_map_of_mem mem)

/-- What may be done to the world, and to the tasks that were left and called, while all threads
stay where they are. -/
theorem change (h : s.Orderly) (world : World μ) (past : List Deed)
    (left : List (Ticket × Strand μ)) (new : List (Errand μ))
    (booked : ∀ c, Moment.Booked ⟨past, world⟩ c)
    (accepted : ∀ c, ∀ k ∈ s.moment.accepted c, k ∈ Moment.accepted ⟨past, world⟩ c)
    (finished : ∀ c, ∀ k ∈ Moment.finished ⟨past, world⟩ c,
      k ∈ s.moment.finished c ∨ ∀ z ∈ s.asleep, z.ticket ≠ some k)
    (current : ∀ c, .toolkit c ∈ s.places.map Place.thread →
      world.current c = s.world.current c)
    (clients : s.world.clients ≤ world.clients)
    (fresh : ∀ errand ∈ new, ∀ c, errand.ticket ∉ s.moment.accepted c)
    (once : (new.map Errand.ticket).Nodup)
    (called : ∀ errand ∈ new, errand.ticket ∈ Moment.accepted ⟨past, world⟩ errand.context)
    (kept : ∀ entry ∈ left, entry ∈ s.left ∨ entry.2.Keeps .regular ∧
      ∃ c, entry.1 ∈ Moment.accepted ⟨past, world⟩ c ∧
        entry.2.Serves (s.errands ++ new) c entry.1)
    (leftOnce : (left.map Prod.fst).Nodup)
    (waits : ∀ c, ∀ k ∈ world.waiting c, ∃ strand, (k, strand) ∈ left ∧
      strand.thread = .toolkit c) :
    ({ s with world, past, left, errands := s.errands ++ new } : Timeline μ).Orderly := by
  have serves : ∀ {c k} {strand : Strand μ}, k ∈ s.moment.accepted c →
      strand.Serves s.errands c k → strand.Serves (s.errands ++ new) c k := fun old serves =>
    serves.more fun errand mem same => fresh errand mem _ (same ▸ old)
  refine ⟨booked, h.apart, fun place mem => ?_, fun z mem has => ?_, fun entry mem => ?_, leftOnce,
    waits, fun errand mem => ?_, ?_⟩
  · have fits := h.fits place mem
    refine ⟨fits.even, fun n e => Nat.lt_of_lt_of_le (fits.known n e) clients, fits.keeps,
      fun c e => ?_⟩
    obtain ⟨k, busy, serves'⟩ := fits.serves c e
    refine ⟨k, (current c ?_).trans busy, fun b => ?_⟩
    · exact e ▸ List.mem_map_of_mem mem
    · exact serves (h.accepted_of_current busy) (serves' b)
  · obtain ⟨errand, e, awaits⟩ := h.asleep z mem has
    refine ⟨errand, e, List.mem_append_left _ awaits.called, fun done => ?_,
      fun c k at_work busy answer => ?_⟩
    · rcases finished _ _ done with before | nobody
      · exact awaits.unfinished before
      · exact nobody z mem (e ▸ rfl)
    · have there := thread_of_awaits z errand mem e
      have busy' : s.world.current c = some k := (current c (at_work ▸ there)).symm.trans busy
      exact serves (h.accepted_of_current busy') (awaits.serves c k at_work busy' answer)
  · rcases kept entry mem with old | new
    · obtain ⟨keeps, c, before, serves'⟩ := h.left entry old
      exact ⟨keeps, c, accepted c _ before, serves before serves'⟩
    · exact new
  · rcases List.mem_append.1 mem with old | new
    · exact accepted _ _ (h.accepted errand old)
    · exact called errand new
  · show ((s.errands ++ new).map Errand.ticket).Nodup
    rw [List.map_append, List.nodup_append]
    refine ⟨h.calledOnce, once, fun k old k' mem same => ?_⟩
    obtain ⟨errand, there, rfl⟩ := List.mem_map.1 old
    obtain ⟨errand', there', rfl⟩ := List.mem_map.1 mem
    exact fresh errand' there' _ (same ▸ h.accepted errand there)

/-- What may be done to the world while nothing happens to tasks. -/
theorem aside (h : s.Orderly) (world : World μ) (booked : ∀ c, Moment.Booked ⟨s.past, world⟩ c)
    (current : ∀ c, world.current c = s.world.current c)
    (waiting : ∀ c, world.waiting c = s.world.waiting c)
    (clients : s.world.clients ≤ world.clients) : ({ s with world } : Timeline μ).Orderly := by
  have changed := h.change world s.past s.left [] booked (fun _ _ old => old) (fun _ _ done => .inl done)
    (fun c _ => current c) clients (fun _ mem => by cases mem) List.nodup_nil
    (fun _ mem => by cases mem) (fun _ old => .inl old) h.leftOnce
    (fun c k mem => h.waits c k (waiting c ▸ mem))
  simpa using changed

/-- A thread works on the world. -/
theorem tends (h : s.Orderly) {world : World μ} (tends : s.world.Tends world) :
    ({ s with world } : Timeline μ).Orderly :=
  h.aside world (fun c => (h.booked c).tends tends) tends.current tends.waiting
    (Nat.le_of_eq tends.clients.symm)

/-- Time goes by. -/
theorem passes (h : s.Orderly) (clock : Instant) :
    ({ s with world := { s.world with clock } } : Timeline μ).Orderly :=
  h.aside _ (fun c => (h.booked c).of_same ⟨rfl, rfl, rfl⟩ rfl (Nat.le_refl _)) (fun _ => rfl)
    (fun _ => rfl) (Nat.le_refl _)

/-- A thread of a context is done with its task, and nobody waits for it. -/
theorem finishes (h : s.Orderly) {context : Context Ticket}
    (hc : s.world.contexts[c]? = some context) (current : context.current = some k)
    (away : .toolkit c ∉ s.places.map Place.thread)
    (nobody : ∀ z ∈ s.asleep, z.ticket ≠ some k) :
    ({ s with
      world := s.world.modifyContext c Context.finish
      past := s.past ++ [.finished (c, k)] } : Timeline μ).Orderly := by
  have changed := h.change (s.world.modifyContext c Context.finish)
    (s.past ++ [Deed.finished (c, k)]) s.left []
    (fun c' => (h.booked c').contextStep (.finish hc current)) (fun c' k' old => ?_)
    (fun c' k' done => ?_) (fun c' there => ?_) (Nat.le_refl _)
    (fun _ mem => by cases mem) List.nodup_nil (fun _ mem => by cases mem) (fun _ old => .inl old)
    h.leftOnce (fun c' k' mem => ?_)
  · simpa using changed
  · rw [Moment.accepted_of_past (m := s.moment) rfl]
    exact List.mem_append_left _ old
  · rw [Moment.finished_of_past (m := s.moment) rfl] at done
    rcases List.mem_append.1 done with old | new
    · exact .inl old
    · obtain ⟨d, mem, e⟩ := List.mem_filterMap.1 new
      rw [List.mem_singleton.1 mem, Deed.finished?] at e
      split at e
      · cases e
        exact .inr nobody
      · cases e
  · rw [World.current_modifyContext hc, if_neg]
    rintro rfl
    exact away there
  · rw [World.waiting_modifyContext hc] at mem
    split at mem
    · rename_i here
      subst here
      exact h.waits c k' (World.waiting_of_getElem? hc ▸ mem)
    · exact h.waits c' k' mem

/-- A context takes the request to shut down, leaves, or waits. -/
theorem idles (h : s.Orderly) {context : Context Ticket}
    (hc : s.world.contexts[c]? = some context) (free : context.current = none)
    (nothing : context.next.current = none) :
    ({ s with world := s.world.modifyContext c Context.next } : Timeline μ).Orderly := by
  have waits : context.next.waiting = context.waiting := by
    rcases context.next_cases with ⟨same, -⟩ | ⟨task, rest, -, -, takes⟩ | ⟨rest, -, queue, takes⟩ |
      ⟨-, -, -, leaves⟩ | ⟨-, -, same⟩
    · rw [same]
    · rw [takes] at nothing
      cases nothing
    · rw [takes]
      simp [Context.waiting, queue, List.filterMap_cons]
    · rw [leaves]
      rfl
    · rw [same]
  refine h.aside _ (fun c' => ?_) (fun c' => ?_) (fun c' => ?_) (Nat.le_refl _)
  · have step : ContextStep s.moment.world (context.beginning.map fun k => .began (c, k)) _ _ :=
      .next hc
    have booked := (h.booked c').contextStep step
    rw [Context.beginning, free] at booked
    simp only [nothing, Option.toList_none, List.map_nil, List.append_nil] at booked
    exact booked
  · rw [World.current_modifyContext hc]
    split
    · rename_i here
      rw [← here, World.current_of_getElem? hc, nothing, free]
    · rfl
  · rw [World.waiting_modifyContext hc]
    split
    · rename_i here
      rw [← here, World.waiting_of_getElem? hc, waits]
    · rfl

/-- A context takes a task out of its queue. -/
theorem begins (h : s.Orderly) {context : Context Ticket} {rest : List (Message Ticket)}
    (hc : s.world.contexts[c]? = some context) (free : context.current = none)
    (queue : context.queue = .run k :: rest)
    (takes : context.next = { context with queue := rest, current := some k }) :
    ({ s with
      world := s.world.modifyContext c Context.next
      past := s.past ++ [.began (c, k)]
      left := s.left.filter (·.1 != k) } : Timeline μ).Orderly := by
  have begun : context.beginning = [k] := by
    rw [Context.beginning, free, takes]
    rfl
  have booked : ∀ c', Moment.Booked ⟨s.past ++ [Deed.began (c, k)],
      s.world.modifyContext c Context.next⟩ c' := fun c' => by
    have step : ContextStep s.moment.world (context.beginning.map fun k => .began (c, k)) _ _ :=
      .next hc
    rw [begun] at step
    exact (h.booked c').contextStep step
  have away : .toolkit c ∉ s.places.map Place.thread := fun there => by
    obtain ⟨place, mem, thread⟩ := List.mem_map.1 there
    obtain ⟨k', busy, -⟩ := (h.fits place mem).serves c thread
    rw [World.current_of_getElem? hc, free] at busy
    cases busy
  have waiting : context.waiting = k :: context.next.waiting := by
    rw [takes]
    simp [Context.waiting, queue]
  have changed := h.change (s.world.modifyContext c Context.next) (s.past ++ [Deed.began (c, k)])
    (s.left.filter (·.1 != k)) [] booked (fun c' k' old => ?_) (fun c' k' done => ?_)
    (fun c' there => ?_) (Nat.le_refl _) (fun _ mem => by cases mem) List.nodup_nil
    (fun _ mem => by cases mem) (fun _ mem => .inl (List.mem_of_mem_filter mem))
    (h.leftOnce.sublist ((List.filter_sublist).map Prod.fst)) (fun c' k' mem => ?_)
  · simpa using changed
  · rw [Moment.accepted_of_past (m := s.moment) rfl]
    exact List.mem_append_left _ old
  · rw [Moment.finished_of_past (m := s.moment) rfl] at done
    exact .inl (by simpa [Deed.finished?] using done)
  · rw [World.current_modifyContext hc, if_neg]
    rintro rfl
    exact away there
  · have waits : k' ∈ s.world.waiting c' := by
      rw [World.waiting_modifyContext hc] at mem
      split at mem
      · rename_i here
        rw [← here, World.waiting_of_getElem? hc, waiting]
        exact List.mem_cons_of_mem _ mem
      · exact mem
    obtain ⟨strand, there, thread⟩ := h.waits c' k' waits
    refine ⟨strand, List.mem_filter.2 ⟨there, bne_iff_ne.2 ?_⟩, thread⟩
    rintro rfl
    -- the task was left to one context, where it does not wait any more
    have head : k' ∈ s.world.waiting c := by
      rw [World.waiting_of_getElem? hc, waiting]
      exact List.mem_cons_self
    obtain ⟨strand', there', thread'⟩ := h.waits c k' head
    have same : strand = strand' :=
      congrArg Prod.snd (List.inj_on_of_nodup_map h.leftOnce there there' rfl)
    have here : c' = c := by
      rw [same, thread'] at thread
      cases thread
      rfl
    subst here
    have once := (booked c').once
    rw [(booked c').order, Moment.begun_of_past (m := s.moment) rfl] at once
    exact (List.nodup_append.1 once).2.2 k' (by simp [Deed.began?]) k' mem rfl

/-- A context accepts a task that is left to it, or called. -/
theorem accepts (h : s.Orderly) {world : World μ} (accepts : s.world.Accepts c k world)
    (strand : Strand μ) (new : List (Errand μ)) (keeps : strand.Keeps .regular)
    (serves : strand.Serves (s.errands ++ new) c k)
    (own : ∀ errand ∈ new, errand.ticket = k ∧ errand.context = c)
    (once : (new.map Errand.ticket).Nodup) :
    ({ s with
      world
      past := s.past ++ [.accepted (c, k)]
      left := s.left ++ [(k, strand)]
      errands := s.errands ++ new } : Timeline μ).Orderly := by
  obtain ⟨context, context', hc, ok, contexts⟩ := accepts.accepts
  obtain rfl := accepts.next
  have fresh : ∀ c, s.world.tickets ∉ s.moment.accepted c := fun c old =>
    Nat.lt_irrefl _ (h.ticket_lt old)
  obtain ⟨-, grown⟩ := Context.accept_eq_ok ok
  have looks : ∀ {γ : Type} (f : Option (Context Ticket) → γ) (c' : ContextId),
      f (world.contexts[c']?) = f ((s.world.modifyContext c fun _ => context').contexts[c']?) :=
    fun f c' => by rw [contexts]; rfl
  have booked : ∀ c', Moment.Booked ⟨s.past ++ [Deed.accepted (c, s.world.tickets)], world⟩ c' :=
    fun c' => ((h.booked c').contextStep (.accept hc ok)).of_same ⟨rfl, rfl, rfl⟩ (looks id c')
      (Nat.le_of_eq accepts.given.symm)
  have accepted : ∀ c' k', k' ∈ s.moment.accepted c' →
      k' ∈ Moment.accepted ⟨s.past ++ [Deed.accepted (c, s.world.tickets)], world⟩ c' :=
    fun c' k' old => by
      rw [Moment.accepted_of_past (m := s.moment) rfl]
      exact List.mem_append_left _ old
  have last : s.world.tickets ∈
      Moment.accepted ⟨s.past ++ [Deed.accepted (c, s.world.tickets)], world⟩ c := by
    rw [Moment.accepted_of_past (m := s.moment) rfl]
    exact List.mem_append_right _ (by simp [Deed.accepted?])
  refine h.change world _ _ new booked accepted (fun c' k' done => ?_) (fun c' _ => ?_)
    (Nat.le_of_eq accepts.clients.symm) (fun errand mem c' => (own errand mem).1 ▸ fresh c') once
    (fun errand mem => ?_) (fun entry mem => ?_) ?_ (fun c' k' mem => ?_)
  · rw [Moment.finished_of_past (m := s.moment) rfl] at done
    exact .inl (by simpa [Deed.finished?] using done)
  · exact accepts.current c'
  · obtain ⟨ticket, context⟩ := own errand mem
    rw [ticket, context]
    exact last
  · rcases List.mem_append.1 mem with old | new
    · exact .inl old
    · rw [List.mem_singleton.1 new]
      exact .inr ⟨keeps, c, last, serves⟩
  · rw [List.map_append, List.nodup_append]
    refine ⟨h.leftOnce, List.nodup_singleton _, fun k' old k'' mem same => ?_⟩
    obtain ⟨entry, there, rfl⟩ := List.mem_map.1 old
    obtain ⟨-, c', before, -⟩ := h.left entry there
    have newest : entry.1 = s.world.tickets := same.trans (List.mem_singleton.1 mem)
    exact fresh c' (newest ▸ before)
  · have same := World.waiting_modifyContext hc (fun _ => context') c'
    rw [World.waiting, looks (fun x => (x.map Context.waiting).getD []) c'] at mem
    have mem : k' ∈ (s.world.modifyContext c fun _ => context').waiting c' := mem
    rw [same] at mem
    have old : k' ∈ s.world.waiting c' → ∃ strand', (k', strand') ∈
        s.left ++ [(s.world.tickets, strand)] ∧ strand'.thread = .toolkit c' := fun waits => by
      obtain ⟨strand', there, thread⟩ := h.waits c' k' waits
      exact ⟨strand', List.mem_append_left _ there, thread⟩
    split at mem
    · rename_i here
      rw [grown] at mem
      simp only [Context.waiting, List.filterMap_append, List.mem_append] at mem
      rcases mem with before | new
      · exact old (here ▸ World.waiting_of_getElem? hc ▸ before)
      · have newest : k' = s.world.tickets := by simpa using new
        refine ⟨strand, List.mem_append_right _ ?_, here ▸ serves.thread_eq⟩
        rw [newest]
        exact List.mem_singleton_self _
    · exact old mem

end Orderly

end Timeline

end TableAccess
