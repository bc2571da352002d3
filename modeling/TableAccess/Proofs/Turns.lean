import TableAccess.Proofs.Errands

/-!
# Turns

Every turn keeps books, threads and callers in order: a thread that works hands over what it calls
for and waits in one place, a task that ends wakes its caller if that one still waits, and whoever
gives up is simply gone.

## The model

* `Orderly.worked`, `Orderly.served` — a thread works, a context takes what is next for it.
* `Turn.orderly`, `Lived.orderly` — every turn keeps the invariant, so it holds at every time.
-/

namespace TableAccess

variable {μ α β : Type} {s s' : Timeline μ} {c : ContextId} {k : Ticket}

/-- What was left under a ticket of its own is found. -/
theorem lookup_of_nodup {left : List (Ticket × Strand μ)} {strand : Strand μ}
    (once : (left.map Prod.fst).Nodup) (mem : (k, strand) ∈ left) : left.lookup k = some strand := by
  obtain ⟨before, after, split⟩ := List.append_of_mem mem
  refine List.lookup_eq_some_iff.2 ⟨before, after, split, fun entry there => ?_⟩
  rw [split, List.map_append, List.nodup_append] at once
  simpa using fun same : k = entry.1 =>
    once.2.2 _ (List.mem_map_of_mem there) k List.mem_cons_self same.symm

/-! ### Answers -/

namespace Agenda

/-- Who does not wait gets no answer. -/
theorem answer_of_nobody (a : Agenda μ) (caller : Option (Strand μ))
    (nobody : ∀ z ∈ a.asleep, z.ticket ≠ some k) : a.answer (some k) caller = a := by
  have none_waits : a.asleep.any (fun z => z.ticket.isSome && z.ticket == some k) = false := by
    rw [List.any_eq_false]
    intro z mem
    simp [nobody z mem]
  unfold answer
  rw [none_waits]
  cases caller <;> rfl

/-- Who waits for the result of a task goes on with it. -/
theorem answer_of_mem {a : Agenda μ} {z : Sleeper μ} (mem : z ∈ a.asleep)
    (ticket : z.ticket = some k) (caller : Strand μ) :
    a.answer (some k) (some caller) =
      { a with
        ready := a.ready ++ [caller]
        asleep := a.asleep.filter (·.ticket != some k) } := by
  have waits : a.asleep.any (fun z => z.ticket.isSome && z.ticket == some k) = true := by
    rw [List.any_eq_true]
    exact ⟨z, mem, by simp [ticket]⟩
  unfold answer
  rw [waits]

/-- An answer wakes only those that wait for it. -/
theorem mem_asleep_answer {a : Agenda μ} {z : Sleeper μ} (mem : z ∈ a.asleep)
    (other : z.ticket ≠ some k) (caller : Option (Strand μ)) :
    z ∈ (a.answer (some k) caller).asleep := by
  unfold answer
  split
  · exact List.mem_filter.2 ⟨mem, by simpa using other⟩
  · exact mem

theorem asleep_answer_subset (a : Agenda μ) (ticket : Option Ticket) (caller : Option (Strand μ)) :
    (a.answer ticket caller).asleep ⊆ a.asleep := by
  unfold answer
  split
  · exact List.filter_subset_self _
  · exact List.Subset.refl _

/-! ### One place more -/

theorem places_ready (a : Agenda μ) (strand : Strand μ) :
    ({ a with ready := a.ready ++ [strand] } : Agenda μ).places.Perm
      ((fun _ => strand) :: a.places) := by
  have perm : (a.running.toList ++ (a.ready ++ [strand])).Perm
      (strand :: (a.running.toList ++ a.ready)) := by
    rw [← List.append_assoc]
    exact List.perm_append_singleton _ _
  exact (perm.map _).append_right _

theorem places_asleep (a : Agenda μ) (z : Sleeper μ) :
    ({ a with asleep := a.asleep ++ [z] } : Agenda μ).places.Perm (z.next :: a.places) := by
  have perm : (a.asleep ++ [z]).Perm (z :: a.asleep) := List.perm_append_singleton _ _
  exact ((perm.map Sleeper.next).append_left _).trans List.perm_middle

theorem places_running {a : Agenda μ} (free : a.running = none) (strand : Strand μ) :
    ({ a with running := some strand } : Agenda μ).places = (fun _ => strand) :: a.places := by
  unfold places
  rw [free]
  rfl

/-- The thread that goes on has the first place. -/
theorem places_of_running {a : Agenda μ} {strand : Strand μ} (running : a.running = some strand) :
    a.places = (fun _ => strand) :: ({ a with running := none } : Agenda μ).places := by
  unfold places
  rw [running]
  rfl

theorem places_of_ready {a : Agenda μ} {strand : Strand μ} {before after : List (Strand μ)}
    (free : a.running = none) (ready : a.ready = before ++ strand :: after) :
    ({ a with running := some strand, ready := before ++ after } : Agenda μ).places.Perm
      a.places := by
  have perm : (strand :: (before ++ after)).Perm (before ++ strand :: after) := List.perm_middle.symm
  unfold places
  rw [free, ready]
  exact (perm.map _).append_right _

theorem places_of_asleep {a : Agenda μ} {z : Sleeper μ} {before after : List (Sleeper μ)}
    (asleep : a.asleep = before ++ z :: after) :
    a.places.Perm (z.next :: ({ a with asleep := before ++ after } : Agenda μ).places) := by
  have perm : (before ++ z :: after).Perm (z :: (before ++ after)) := List.perm_middle
  unfold places
  rw [asleep]
  exact ((perm.map Sleeper.next).append_left _).trans List.perm_middle

end Agenda

namespace Timeline

/-! ### Where a thread may stand next -/

/-- A thread that goes on stands where it may. -/
theorem Fits.carry {thread : Thread} {work : Act μ β} {work' : Bool → Act μ β}
    {caller : Except Panic β → Option (Strand μ)} (h : s.Fits fun _ => .mk thread work caller)
    (new : List (Errand μ)) (clients : s.world.clients ≤ s'.world.clients)
    (current : ∀ c, s'.world.current c = s.world.current c)
    (errands : s'.errands = s.errands ++ new)
    (fresh : ∀ errand ∈ new, ∀ c, s.world.current c ≠ some errand.ticket)
    (rest : ∀ b, ∀ task : Act μ β, task.Rest work → task.Rest (work' b))
    (keeps : ∀ b, (Strand.mk thread (work' b) caller).Keeps .regular) :
    s'.Fits fun b => .mk thread (work' b) caller := by
  refine ⟨fun _ => rfl, fun n e => Nat.lt_of_lt_of_le (h.known n e) clients, keeps, fun c e => ?_⟩
  obtain ⟨k, busy, serves⟩ := h.serves c e
  refine ⟨k, (current c).trans busy, fun b => ?_⟩
  rw [errands]
  exact ((serves b).goesOn (rest b)).more fun errand mem same =>
    fresh errand mem c (same ▸ busy)

namespace Orderly

/-- The caller of a task goes on with its result. -/
theorem answers (h : s.Orderly) {context : Context Ticket}
    (hc : s.world.contexts[c]? = some context) (current : context.current = some k)
    (away : .toolkit c ∉ s.places.map Place.thread) {errand : Errand μ}
    (called : errand ∈ s.errands) (waits : errand.sleeper ∈ s.asleep) (ticket : errand.ticket = k)
    {answer : Option (Except Panic errand.β)} (keeps : (errand.goesOn answer).Keeps .regular) :
    ({ s with
      ready := s.ready ++ [errand.goesOn answer]
      asleep := s.asleep.filter (·.ticket != some k)
      world := s.world.modifyContext c Context.finish
      past := s.past ++ [.finished (c, k)] } : Timeline μ).Orderly := by
  let asleep := s.asleep.filter (·.ticket != some k)
  have there : errand.sleeper.next ∈ s.places :=
    List.mem_append_right _ (List.mem_map_of_mem waits)
  have awaits := h.awaits called waits
  have fits := h.fits _ there
  have fewer : asleep.Sublist s.asleep := List.filter_sublist
  have fewerPlaces : ({ s with asleep } : Timeline μ).places.Sublist s.places :=
    (List.Sublist.refl _).append (fewer.map Sleeper.next)
  have gone : ({ s with asleep } : Timeline μ).Orderly :=
    h.rearrange s.running s.ready asleep (h.apart.sublist (fewerPlaces.map Place.thread))
      (fun place mem => ⟨place, fewerPlaces.subset mem, fun b => ⟨b, rfl⟩⟩) fewer.subset
  have nobody : ∀ z ∈ asleep, z.ticket ≠ some k := fun z mem => by
    simpa using (List.mem_filter.1 mem).2
  have left : errand.thread ∉ ({ s with asleep } : Timeline μ).places.map Place.thread := fun mem => by
    have apart := h.apart
    rw [Agenda.places, List.map_append, List.nodup_append] at apart
    obtain ⟨-, alone, elsewhere⟩ := apart
    rw [Agenda.places, List.map_append, List.mem_append] at mem
    rcases mem with other | mem
    · exact elsewhere _ other _ (List.mem_map_of_mem (List.mem_map_of_mem waits)) rfl
    · rw [List.map_map] at alone mem
      obtain ⟨z, mem, same⟩ := List.mem_map.1 mem
      have one : z = errand.sleeper :=
        List.inj_on_of_nodup_map alone (fewer.subset mem) waits same
      exact nobody z mem (by rw [one, ← ticket]; rfl)
  have finished := gone.finishes hc current (fun mem => away ((fewerPlaces.map _).subset mem)) nobody
  have stands : Fits ({ s with
      asleep
      world := s.world.modifyContext c Context.finish
      past := s.past ++ [.finished (c, k)] } : Timeline μ) fun _ => errand.goesOn answer := by
    refine ⟨fun _ => rfl, fun n e => fits.known n e, fun _ => keeps, fun c' e => ?_⟩
    obtain ⟨k', busy, -⟩ := fits.serves c' e
    refine ⟨k', ?_, fun _ => awaits.serves c' k' e busy answer⟩
    refine (World.current_modifyContext hc Context.finish c').trans ((if_neg ?_).trans busy)
    rintro rfl
    exact away (List.mem_map.2 ⟨_, there, e⟩)
  exact finished.place s.running (s.ready ++ [errand.goesOn answer]) asleep stands left
    (Agenda.places_ready { s.toAgenda with asleep } _) fun z mem => .inl mem

/-! ### The ways to stop -/

section Stops

variable {thread : Thread} {work : Act μ β} {caller : Except Panic β → Option (Strand μ)}
  {world w : World μ}

/-- A thread is over with its work. -/
theorem ended (h : s.Orderly) (fits : s.Fits fun _ => .mk thread work caller)
    (apart : thread ∉ s.places.map Place.thread) (tends : s.world.Tends world)
    (result : Except Panic β) (waiter : Strand.WaiterKeeps .regular (caller result)) :
    ({ s with
      toSchedule := Schedule.finish s.toAgenda world thread (caller result)
      past := s.past ++ (Progress.done result world).deeds thread } : Timeline μ).Orderly := by
  have tended := h.tends tends
  cases thread with
  | client n => simpa [Progress.deeds, Schedule.finish] using tended
  | toolkit c =>
    obtain ⟨k, busy, serves⟩ := fits.serves c rfl
    have busy : world.current c = some k := (tends.current c).trans busy
    obtain ⟨context, hc, current⟩ := Option.bind_eq_some_iff.1 busy
    have deeds : (Progress.done result world).deeds (.toolkit c) = [.finished (c, k)] := by
      simp [Progress.deeds, hc, current]
    have schedule : Schedule.finish s.toAgenda world (.toolkit c) (caller result) =
        ⟨s.toAgenda.answer (some k) (caller result), world.modifyContext c Context.finish⟩ := by
      simp [Schedule.finish, hc, current]
    rw [deeds, schedule]
    -- either the caller still waits, and is told, or nobody does
    by_cases waits : ∃ z ∈ s.asleep, z.ticket = some k
    · obtain ⟨z, mem, ticket⟩ := waits
      obtain ⟨errand, rfl, awaits⟩ := h.asleep z mem (ticket ▸ rfl)
      have own : errand.ticket = k := Option.some.inj ticket
      rcases (serves false).answer result with ⟨errand', called, -, own', answer, e⟩ | ⟨-, uncalled⟩
      · obtain rfl := h.errand_eq awaits.called called (own.trans own'.symm)
        rw [e] at waiter ⊢
        rw [Agenda.answer_of_mem mem ticket]
        exact tended.answers hc current apart called mem own (Strand.waiterKeeps_some.1 waiter)
      · exact absurd own (uncalled errand awaits.called)
    · have nobody : ∀ z ∈ s.asleep, z.ticket ≠ some k := fun z mem ticket => waits ⟨z, mem, ticket⟩
      rw [Agenda.answer_of_nobody _ _ nobody]
      exact tended.finishes hc current apart nobody

/-- A thread waits for something. -/
theorem waited (h : s.Orderly) (fits : s.Fits fun _ => .mk thread work caller)
    (apart : thread ∉ s.places.map Place.thread) (tends : s.world.Tends world)
    {holds : World μ → Bool} {bound : Option Duration} {next : Bool → Act μ β}
    (stops : work w = .awaiting holds bound world next) (deadline : Option Nat)
    (keeps : ∀ b, (Strand.mk thread (next b) caller).Keeps .regular) :
    ({ s with
      asleep := s.asleep ++ [⟨none, holds, deadline, fun b => .mk thread (next b) caller⟩]
      world } : Timeline μ).Orderly := by
  have stands : Fits ({ s with world } : Timeline μ) fun b => .mk thread (next b) caller :=
    fits.carry [] (Nat.le_of_eq tends.clients.symm) tends.current (List.append_nil _).symm
      (fun _ mem => by cases mem) (fun b _ rest => rest.awaited stops b) keeps
  refine (h.tends tends).place s.running s.ready _ stands apart (Agenda.places_asleep _ _)
    fun z mem => ?_
  rcases List.mem_append.1 mem with old | new
  · exact .inl old
  · rw [List.mem_singleton.1 new]
    exact .inr fun ticket => by cases ticket

/-- A thread leaves a task to a context. -/
theorem handed (h : s.Orderly) (free : s.running = none)
    (fits : s.Fits fun _ => .mk thread work caller)
    (apart : thread ∉ s.places.map Place.thread) (tends : s.world.Tends w)
    (accepts : w.Accepts c k world) {task : Act μ Unit} {next : Act μ β} {w₀ : World μ}
    (stops : work w₀ = .leaving c k task world next)
    (task_keeps : (Strand.mk (.toolkit c) task fun _ => none).Keeps .regular)
    (keeps : (Strand.mk thread next caller).Keeps .regular) :
    ({ s with
      running := some (.mk thread next caller)
      left := s.left ++ [(k, .mk (.toolkit c) task fun _ => none)]
      world
      past := s.past ++ [.accepted (c, k)] } : Timeline μ).Orderly := by
  have tended := h.tends tends
  have uncalled : ∀ errand ∈ s.errands ++ [], errand.ticket ≠ k := fun errand mem same => by
    rw [List.append_nil] at mem
    have old := tended.ticket_lt (tended.accepted errand mem)
    rw [same, accepts.next] at old
    exact Nat.lt_irrefl _ old
  have accepted := tended.accepts accepts _ [] task_keeps (.left task uncalled)
    (fun _ mem => by cases mem) List.nodup_nil
  rw [List.append_nil] at accepted
  have stands : Fits ({ s with
      left := s.left ++ [(k, .mk (.toolkit c) task fun _ => none)]
      world
      past := s.past ++ [.accepted (c, k)] } : Timeline μ) fun _ => .mk thread next caller :=
    fits.carry [] (Nat.le_of_eq (accepts.clients.trans tends.clients).symm)
      (fun c' => (accepts.current c').trans (tends.current c')) (List.append_nil _).symm
      (fun _ mem => by cases mem) (fun _ _ rest => rest.left stops) fun _ => keeps
  exact accepted.place (some (.mk thread next caller)) s.ready s.asleep stands apart
    (.of_eq (Agenda.places_running free _)) fun z mem => .inl mem

/-- A thread calls a task. -/
theorem called (h : s.Orderly) (fits : s.Fits fun _ => .mk thread work caller)
    (apart : thread ∉ s.places.map Place.thread) (tends : s.world.Tends w)
    (accepts : w.Accepts c k world) {task : Act μ α} {bound : Duration}
    {next : Option (Except Panic α) → Act μ β} {w₀ : World μ}
    (stops : work w₀ = .calling c k bound task world next) (deadline : Nat) :
    let errand : Errand μ := ⟨c, k, task, thread, next, caller, deadline⟩
    (errand.strand task).Keeps .regular → (errand.goesOn none).Keeps .regular →
      ({ s with
        asleep := s.asleep ++ [errand.sleeper]
        left := s.left ++ [(k, errand.strand task)]
        world
        past := s.past ++ [.accepted (c, k)]
        errands := s.errands ++ [errand] } : Timeline μ).Orderly := by
  intro errand task_keeps keeps
  have tended := h.tends tends
  have fresh : ∀ c', k ∉ ({ s with world := w } : Timeline μ).moment.accepted c' := fun c' old => by
    have old := tended.ticket_lt old
    rw [accepts.next] at old
    exact Nat.lt_irrefl _ old
  have mem : errand ∈ s.errands ++ [errand] :=
    List.mem_append_right _ (List.mem_singleton_self _)
  have accepted := tended.accepts accepts _ [errand] task_keeps (.called mem rfl rfl .whole)
    (fun e mem => by rw [List.mem_singleton.1 mem]; exact ⟨rfl, rfl⟩) (List.nodup_singleton _)
  have newer : ∀ e ∈ [errand], ∀ c', s.world.current c' ≠ some e.ticket := fun e mem c' busy => by
    rw [List.mem_singleton.1 mem] at busy
    exact fresh c' (tended.accepted_of_current ((tends.current c').trans busy))
  have current : ∀ c', world.current c' = s.world.current c' := fun c' =>
    (accepts.current c').trans (tends.current c')
  have clients := Nat.le_of_eq (accepts.clients.trans tends.clients).symm
  have stands : Fits ({ s with
      left := s.left ++ [(k, errand.strand task)]
      world
      past := s.past ++ [.accepted (c, k)]
      errands := s.errands ++ [errand] } : Timeline μ) fun _ => errand.goesOn none :=
    fits.carry [errand] clients current rfl newer (fun _ _ rest => rest.called stops none)
      fun _ => keeps
  refine accepted.place s.running s.ready _ stands apart (Agenda.places_asleep _ errand.sleeper)
    fun z there => ?_
  rcases List.mem_append.1 there with old | new
  · exact .inl old
  · refine .inr fun _ => ⟨errand, List.mem_singleton.1 new, mem, fun done => ?_,
      fun c' k' own busy answer => ?_⟩
    · have done : k ∈ s.moment.finished c := by
        rw [Moment.finished_of_past (m := s.moment) rfl] at done
        simpa [Deed.finished?] using done
      have before : k ∈ s.moment.begun c := by
        rw [(h.booked c).busy]
        exact List.mem_append_left _ done
      refine fresh c ?_
      rw [(tended.booked c).order]
      exact List.mem_append_left _ before
    · obtain ⟨k'', busy', serves⟩ := fits.serves c' own
      obtain rfl : k'' = k' := Option.some.inj (busy'.symm.trans ((current c').symm.trans busy))
      refine ((serves false).goesOn fun _ rest => rest.called stops answer).more ?_
      exact fun e mem same => newer e mem c' (same ▸ busy')

/-- A thread starts another one. -/
theorem begot (h : s.Orderly) (free : s.running = none)
    (fits : s.Fits fun _ => .mk thread work caller)
    (apart : thread ∉ s.places.map Place.thread) (tends : s.world.Tends w)
    {task : Act μ Unit} {next : Act μ β} {w₀ : World μ}
    (stops : work w₀ = .starting (.client w.clients) task { w with clients := w.clients + 1 } next)
    (task_keeps : (Strand.mk (.client w.clients) task fun _ => none).Keeps .regular)
    (keeps : (Strand.mk thread next caller).Keeps .regular) :
    ({ s with
      running := some (.mk thread next caller)
      ready := s.ready ++ [.mk (.client w.clients) task fun _ => none]
      world := { w with clients := w.clients + 1 } } : Timeline μ).Orderly := by
  have tended := (h.tends tends).aside { w with clients := w.clients + 1 }
    (fun c => ((h.booked c).tends tends).of_same ⟨rfl, rfl, rfl⟩ rfl (Nat.le_refl _))
    (fun _ => rfl) (fun _ => rfl) (Nat.le_succ _)
  have grown : s.world.clients ≤ w.clients := Nat.le_of_eq tends.clients.symm
  have stands : Fits ({ s with world := { w with clients := w.clients + 1 } } : Timeline μ)
      fun _ => .mk thread next caller :=
    fits.carry [] (Nat.le_succ_of_le grown) tends.current (List.append_nil _).symm
      (fun _ mem => by cases mem) (fun _ _ rest => rest.started stops) fun _ => keeps
  have goesOn := tended.place (some (.mk thread next caller)) s.ready s.asleep stands apart
    (.of_eq (Agenda.places_running free _)) fun z mem => .inl mem
  have begins : Fits ({ s with
      running := some (.mk thread next caller)
      world := { w with clients := w.clients + 1 } } : Timeline μ)
      fun _ => .mk (.client w.clients) task fun _ => none := by
    refine ⟨fun _ => rfl, fun n e => ?_, fun _ => task_keeps, fun c e => by cases e⟩
    cases e
    exact Nat.lt_succ_self _
  let running : Agenda μ := { s.toAgenda with running := some (.mk thread next caller) }
  refine goesOn.place _ _ _ begins (fun mem => ?_) (Agenda.places_ready running _) fun z mem => .inl mem
  rw [Agenda.places_running free] at mem
  obtain ⟨place, there, same⟩ := List.mem_map.1 mem
  have known : w.clients < s.world.clients := by
    rcases List.mem_cons.1 there with rfl | old
    · exact fits.known _ same
    · exact (h.fits place old).known _ same
  exact Nat.lt_irrefl _ (Nat.lt_of_lt_of_le known grown)

end Stops

/-! ### Turns -/

/-- A thread works until it stops. -/
theorem worked {thread : Thread} {work : Act μ β} {caller : Except Panic β → Option (Strand μ)}
    (h : ({ s with running := none } : Timeline μ).Orderly)
    (fits : ({ s with running := none } : Timeline μ).Fits fun _ => .mk thread work caller)
    (apart : thread ∉ ({ s with running := none } : Timeline μ).places.map Place.thread) :
    (s.works (.mk thread work caller)).Orderly := by
  have keeps := Strand.keeps_iff.1 (fits.keeps false) { s.world with thread := thread } rfl trivial
  rw [works_mk]
  generalize stops : work { s.world with thread := thread } = progress at keeps ⊢
  cases progress with
  | done result w =>
    have tends := keeps.1.leaves
    have ended := h.ended fits apart { tends with } result keeps.2
    simpa [Progress.errands, Schedule.take] using ended
  | awaiting holds bound w next =>
    have tends := keeps.1.leaves
    have waited := h.waited fits apart { tends with } stops
      (bound.map w.after) fun b => Strand.keeps_iff.2 (keeps.2 b)
    simpa [Progress.deeds, Progress.errands, Schedule.take] using waited
  | leaving c k task w next =>
    obtain ⟨⟨w₁, along, accepts⟩, does, next_keeps⟩ := keeps
    have tends := along.leaves
    have handed := h.handed rfl fits apart { tends with } accepts
      stops (Strand.keeps_of_nobody does) (Strand.keeps_iff.2 next_keeps)
    simpa [Progress.deeds, Progress.errands, Schedule.take] using handed
  | calling c k bound task w next =>
    obtain ⟨⟨w₁, along, accepts⟩, does, next_keeps⟩ := keeps
    have tends := along.leaves
    exact h.called fits apart { tends with } accepts stops
      (w.after bound)
      (Strand.keeps_iff.2 fun w here found => (does w here found).mono fun _ _ answered =>
        Strand.waiterKeeps_some.2 (Strand.keeps_iff.2 answered))
      (Strand.keeps_iff.2 next_keeps)
  | starting begun task w next =>
    obtain ⟨⟨w₁, along, rfl, rfl⟩, does, next_keeps⟩ := keeps
    have tends := along.leaves
    have begot := h.begot rfl fits apart { tends with } stops
      (Strand.keeps_of_nobody does) (Strand.keeps_iff.2 next_keeps)
    simpa [Progress.deeds, Progress.errands, Schedule.take] using begot

/-- A context takes what is next for it. -/
theorem served (h : s.Orderly) (free : s.running = none) {context : Context Ticket}
    (hc : s.world.contexts[c]? = some context) (due : context.isDue = true) :
    (s.serves c).Orderly := by
  have idle := Context.idle_of_isDue due
  have looks : ((s.world.modifyContext c Context.next).contexts[c]?).bind Context.current =
      context.next.current := by
    simp [World.modifyContext, hc]
  unfold serves Schedule.serve
  rw [hc]
  simp only [looks, Option.map_some, Option.getD_some, Context.beginning, idle]
  rcases next : context.next.current with _ | k
  · simpa using h.idles hc idle next
  · obtain ⟨rest, queue, takes⟩ := Context.next_of_takes idle next
    have begun := h.begins hc idle queue takes
    have waits : k ∈ s.world.waiting c := by
      rw [World.waiting_of_getElem? hc, Context.waiting, queue]
      exact List.mem_cons_self
    obtain ⟨strand, left, thread⟩ := h.waits c k waits
    obtain ⟨keeps, c', -, serves⟩ := h.left _ left
    obtain rfl : c' = c := by
      have here := serves.thread_eq.symm.trans thread
      cases here
      rfl
    have lookup := lookup_of_nodup h.leftOnce left
    have busy : (s.world.modifyContext c' Context.next).current c' = some k := by
      rw [World.current_modifyContext hc, if_pos rfl, takes]
    have stands : Fits ({ s with
        world := s.world.modifyContext c' Context.next
        past := s.past ++ [.began (c', k)]
        left := s.left.filter (·.1 != k) } : Timeline μ) fun _ => strand := by
      refine ⟨fun _ => rfl, fun n e => ?_, fun _ => keeps, fun c'' e => ?_⟩
      · cases e.symm.trans thread
      · cases e.symm.trans thread
        exact ⟨k, busy, fun _ => serves⟩
    have running := begun.place (some strand) s.ready s.asleep stands (fun mem => ?_)
      (.of_eq (Agenda.places_running free _)) fun z mem => .inl mem
    · simpa [Schedule.begin, lookup] using running
    · obtain ⟨place, there, same⟩ := List.mem_map.1 mem
      obtain ⟨k', busy, -⟩ := (h.fits place there).serves c' (same.trans thread)
      rw [World.current_of_getElem? hc, idle] at busy
      cases busy

/-- The thread that goes on leaves its place. -/
theorem vacated (h : s.Orderly) {strand : Strand μ} (running : s.running = some strand) :
    ({ s with running := none } : Timeline μ).Orderly ∧
      (({ s with running := none } : Timeline μ).Fits fun _ => strand) ∧
      strand.thread ∉ ({ s with running := none } : Timeline μ).places.map Place.thread := by
  have places := Agenda.places_of_running running
  have apart := h.apart
  rw [places, List.map_cons, List.nodup_cons] at apart
  have fits := h.fits _ (places ▸ List.mem_cons_self)
  refine ⟨h.rearrange none s.ready s.asleep apart.2 (fun place mem => ?_) (List.Subset.refl _),
    ⟨fits.even, fits.known, fits.keeps, fits.serves⟩, apart.1⟩
  exact ⟨place, places ▸ List.mem_cons_of_mem _ mem, fun b => ⟨b, rfl⟩⟩

/-- A thread that waited goes on. -/
theorem woken (h : s.Orderly) (free : s.running = none) {z : Sleeper μ}
    {before after : List (Sleeper μ)} (asleep : s.asleep = before ++ z :: after) (b : Bool) :
    ({ s with running := some (z.next b), asleep := before ++ after } : Timeline μ).Orderly := by
  have places := Agenda.places_of_asleep asleep
  have there : z.next ∈ s.places := places.mem_iff.2 List.mem_cons_self
  have running : ({ s with running := some (z.next b), asleep := before ++ after } :
      Timeline μ).places = (fun _ => z.next b) ::
        ({ s with asleep := before ++ after } : Timeline μ).places :=
    Agenda.places_running (a := { s.toAgenda with asleep := before ++ after }) free _
  refine h.rearrange _ s.ready _ ?_ (fun place mem => ?_) fun z' mem => ?_
  · have apart := (places.map Place.thread).nodup_iff.1 h.apart
    rw [running, List.map_cons]
    have same : Place.thread (fun _ => z.next b) = Place.thread z.next := (h.fits _ there).even b
    rw [same]
    exact apart
  · rw [running] at mem
    rcases List.mem_cons.1 mem with rfl | other
    · exact ⟨z.next, there, fun _ => ⟨b, rfl⟩⟩
    · exact ⟨place, places.mem_iff.2 (List.mem_cons_of_mem _ other), fun b => ⟨b, rfl⟩⟩
  · rw [asleep, List.mem_append, List.mem_cons]
    exact (List.mem_append.1 mem).imp_right .inr

end Orderly

/-- Every turn keeps books, threads and callers in order. -/
theorem Turn.orderly (h : s.Turn s') (orderly : s.Orderly) : s'.Orderly := by
  cases h with
  | @works strand running =>
    obtain ⟨vacated, fits, apart⟩ := orderly.vacated running
    cases strand with
    | mk thread work caller => exact vacated.worked fits apart
  | @yields strand running =>
    obtain ⟨vacated, fits, apart⟩ := orderly.vacated running
    exact vacated.place none (s.ready ++ [strand]) s.asleep fits apart
      (Agenda.places_ready { s.toAgenda with running := none } _) fun z mem => .inl mem
  | @resumes strand before after free ready =>
    have places := Agenda.places_of_ready free ready
    exact orderly.rearrange (some strand) (before ++ after) s.asleep
      ((places.map Place.thread).nodup_iff.2 orderly.apart)
      (fun place mem => ⟨place, places.mem_iff.1 mem, fun b => ⟨b, rfl⟩⟩) (List.Subset.refl _)
  | serves free hc due => exact orderly.served free hc due
  | wakes free asleep _ => exact orderly.woken free asleep true
  | givesUp free asleep _ => exact orderly.woken free asleep false
  | @passes now _ => exact orderly.passes now

/-- Books, threads and callers are in order at every time. -/
theorem Lived.orderly (h : s.Lived) : s.Orderly := by
  obtain ⟨memory, work, keeps, reaches⟩ := h
  exact reaches.keeps (orderly_start memory keeps) fun turn orderly => turn.orderly orderly

end Timeline

end TableAccess
