import TableAccess.Proofs.Keeping
import TableAccess.Proofs.Strides
import TableAccess.Proofs.Waiting

/-!
# Readings that were given up

Whoever has waited long enough for a reading of a table goes on without it, and the reading stays with
the context. Some time it is done, whatever has become of the table, of its nodes and of the context by
then. An editable table is as it was after it was asked, a table that was dropped is not asked at all, and
what the reading comes to is told to nobody. So all that can happen after the time-out is what could
happen if there were nothing in the reading's place but a task that does nothing: only the place in the
queue is taken.

## The model

* `World.Editable` — a table is editable, as long as it is there; `consult_of_editable` — reading it does nothing.
* `Conduct.editable`, `Request.editable` — nobody puts a table of another kind in its place.
* `Turn.swap_left`, `Turn.swap_ready` — what a turn makes of one task it makes of another.
* `Errand.Hollows` — a timeline with an empty task in the place of another; `Hollows.forth`,
  `Hollows.back` — what can come next is the same; `Hollows.along`, `Hollows.along_back` — and so on.
* `Errand.Traceless` — what holds of a call that was given up; `Errand.traceless` — it does if its task does
  nothing.
* `timed_out_reads_leave_no_trace` — the main statement.
-/

namespace TableAccess

variable {μ α β : Type} {s s' s₀ s₀' : Timeline μ} {c : ContextId} {k : Ticket} {t : TableId} {w : World μ}

/-! ### Editable tables -/

/-- A table is an editable one, as long as it is there. -/
def World.Editable (w : World μ) (t : TableId) : Prop :=
  ∀ table, w.table? t = some table → ∃ g, table = .grid g

/-- A reading of an editable table does nothing. -/
theorem consult_of_editable (h : w.Editable t) (inquiry : Inquiry α) :
    ∃ result, consult t inquiry w = .done result w := by
  cases ht : w.table? t with
  | none =>
    unfold consult
    simp only [Act.bind_apply, Act.get_apply, Progress.bind, ht]
    exact ⟨_, rfl⟩
  | some table =>
    obtain ⟨g, rfl⟩ := h table ht
    exact ⟨_, consult_grid ht inquiry⟩

/-- A table stays editable whatever becomes of others, and if it is edited or dropped. -/
theorem World.Editable.setTable (h : w.Editable t) {t' : TableId} {table : Option Table}
    (kind : t' = t → ∀ other, table = some other → ∃ g, other = .grid g) :
    (w.setTable t' table).Editable t := by
  intro other there
  unfold World.table? World.setTable at there
  simp only [List.getElem?_set] at there
  split at there
  · rename_i here
    split at there
    · exact kind here other there
    · cases there
  · exact h other there

/-- Nobody puts a table of another kind in the place of a table. -/
def Conduct.editable (t : TableId) : Conduct μ := .keeping fun w => w.Editable t

theorem Conduct.editable_lasting : (editable t : Conduct μ).Lasting where
  aside {w w'} aside found := by
    rw [World.Aside] at aside
    rw [aside]
    exact found
  finds _ leaves := leaves
  trans _ leaves := leaves

/-- Whatever comes up in requests, no table of another kind is put there. -/
theorem Scope.editable_steps : any.Steps (Conduct.editable t : Conduct μ) := by
  refine any_steps ⟨fun found => found, fun _ _ along => along.leaves⟩ (fun along ht q => ?_)
    (fun along _ _ => along.leaves) (fun along _ _ => along.leaves) fun along _ _ => along.leaves
  refine along.leaves.setTable fun here other same => ?_
  subst t
  obtain ⟨g, rfl⟩ := along.leaves _ ht
  exact ⟨g, (Option.some.inj same).symm⟩

/-- Whatever is requested, editable tables stay editable. -/
theorem Request.editable {request : Request} (kind : request.OfTable) :
    request.act.Keeps (Conduct.editable t : Conduct μ) (fun _ => True) fun _ => True :=
  (Scope.open_any.deeds Scope.editable_steps).request (Scope.open_any.admits kind fun _ _ _ => trivial)

/-! ### One task in the place of another -/

namespace Timeline

variable {X : Strand μ}

section Serves

variable {before after : List (Ticket × Strand μ)} {context : Context Ticket}
  (split : s.left = before ++ (k, X) :: after) (Y : Strand μ)
  (hc : s.world.contexts[c]? = some context) (idle : context.current = none)

include split hc idle

/-- A context that takes another task leaves this one where it is, and any other in its place. -/
theorem serves_other {k' : Ticket} (takes : context.next.current = some k') (other : k' ≠ k) :
    (s.serves c).left = before.filter (·.1 != k') ++ (k, X) :: after.filter (·.1 != k') ∧
      ({ s with left := before ++ (k, Y) :: after } : Timeline μ).serves c = { s.serves c with
        left := before.filter (·.1 != k') ++ (k, Y) :: after.filter (·.1 != k') } := by
  have stays : (k != k') = true := bne_iff_ne.2 (Ne.symm other)
  have apart : (k' == k) = false := beq_false_of_ne other
  have served := serves_of_takes (s := { s with left := before ++ (k, Y) :: after }) hc idle takes
  rw [served, serves_of_takes hc idle takes]
  simp [split, List.lookup_append, List.lookup_cons, stays, apart]

/-- A context that takes this task would take any other in its place. -/
theorem serves_own (once : (s.left.map Prod.fst).Nodup) (takes : context.next.current = some k) :
    (s.serves c).running = some X ∧
      ({ s with left := before ++ (k, Y) :: after } : Timeline μ).serves c =
        { s.serves c with running := some Y } := by
  have first : ∀ strand, (before ++ (k, strand) :: after).lookup k = some strand := fun strand =>
    lookup_of_nodup (by simpa [split] using once) (by simp)
  have served := serves_of_takes (s := { s with left := before ++ (k, Y) :: after }) hc idle takes
  rw [served, serves_of_takes hc idle takes]
  simp [split, first]

end Serves

/-- What a turn makes of a task that waits it makes of any other in its place: it goes on waiting, or its
context takes it. -/
theorem Turn.swap_left (turn : s.Turn s') {before after : List (Ticket × Strand μ)}
    (split : s.left = before ++ (k, X) :: after) (once : (s.left.map Prod.fst).Nodup) (Y : Strand μ) :
    (∃ before' after', s'.left = before' ++ (k, X) :: after' ∧
      ({ s with left := before ++ (k, Y) :: after } : Timeline μ).Turn
        { s' with left := before' ++ (k, Y) :: after' }) ∨
    ∃ c context, s.world.contexts[c]? = some context ∧ context.current = none ∧
      context.next.current = some k ∧ s' = s.serves c ∧ s'.running = some X ∧
      ({ s with left := before ++ (k, Y) :: after } : Timeline μ).Turn
        (({ s with left := before ++ (k, Y) :: after } : Timeline μ).serves c) ∧
      ({ s with left := before ++ (k, Y) :: after } : Timeline μ).serves c =
        { s' with running := some Y } := by
  have stays : s'.left = s.left → (∀ left, ({ s with left := left } : Timeline μ).Turn
      { s' with left := left }) → ∃ before' after', s'.left = before' ++ (k, X) :: after' ∧
        ({ s with left := before ++ (k, Y) :: after } : Timeline μ).Turn
          { s' with left := before' ++ (k, Y) :: after' } := fun same turn =>
    ⟨before, after, same.trans split, turn _⟩
  cases turn with
  | @works strand running =>
    obtain ⟨more, works⟩ := s.works_left strand
    refine .inl ⟨before, after ++ more, ?_, ?_⟩
    · have left := congrArg (fun s : Timeline μ => s.left) (works s.left)
      refine left.trans ?_
      show s.left ++ more = _
      rw [split, List.append_assoc, List.cons_append]
    · have turn : ({ s with left := before ++ (k, Y) :: after } : Timeline μ).Turn
          (({ s with left := before ++ (k, Y) :: after } : Timeline μ).works strand) := .works running
      rwa [works, List.append_assoc, List.cons_append] at turn
  | yields running => exact .inl (stays rfl fun _ => .yields running)
  | resumes free ready => exact .inl (stays rfl fun _ => .resumes free ready)
  | wakes free asleep holds => exact .inl (stays rfl fun _ => .wakes free asleep holds)
  | givesUp free asleep due => exact .inl (stays rfl fun _ => .givesUp free asleep due)
  | passes later => exact .inl (stays rfl fun _ => .passes later)
  | @serves c context free hc due =>
    have idle := Context.idle_of_isDue due
    have turn : ∀ left, ({ s with left := left } : Timeline μ).Turn
        (({ s with left := left } : Timeline μ).serves c) := fun _ => .serves free hc due
    cases takes : context.next.current with
    | none =>
      refine .inl (stays ?_ fun left => ?_)
      · rw [serves_of_idle hc idle takes]
      · rw [serves_of_idle hc idle takes]
        have turn := turn left
        rwa [serves_of_idle (s := { s with left := left }) hc idle takes] at turn
    | some k' =>
      have turn := turn (before ++ (k, Y) :: after)
      by_cases own : k' = k
      · subst own
        obtain ⟨running, same⟩ := serves_own split Y hc idle once takes
        exact .inr ⟨c, context, hc, idle, takes, rfl, running, turn, same⟩
      · obtain ⟨left, same⟩ := serves_other split Y hc idle takes own
        exact .inl ⟨_, _, left, same ▸ turn⟩

/-- One of the threads that can go on does: it is another than this one, or this one, and then any other in
its place would. -/
theorem resumes_swap {before after before' after' : List (Strand μ)} {strand : Strand μ}
    (free : s.running = none) (ready : before ++ X :: after = before' ++ strand :: after')
    (Y : Strand μ) :
    (∃ more more', before' ++ after' = more ++ X :: more' ∧
      ({ s with ready := before ++ Y :: after } : Timeline μ).Turn
        { s with running := some strand, ready := more ++ Y :: more' }) ∨
    strand = X ∧ ({ s with ready := before ++ Y :: after } : Timeline μ).Turn
      { s with running := some Y, ready := before' ++ after' } := by
  have goesOn : X = strand → before = before' → after = after' →
      strand = X ∧ ({ s with ready := before ++ Y :: after } : Timeline μ).Turn
        { s with running := some Y, ready := before' ++ after' } := fun same front back => by
    subst same front back
    exact ⟨rfl, .resumes free rfl⟩
  rcases List.append_eq_append_iff.1 ready with ⟨between, front, tail⟩ | ⟨between, front, tail⟩
  · cases between with
    | nil =>
      obtain ⟨same, back⟩ := List.cons.inj tail
      exact .inr (goesOn same (by rw [front, List.append_nil]) back)
    | cons first between =>
      obtain ⟨rfl, rfl⟩ := List.cons.inj tail
      refine .inl ⟨before, between ++ after', ?_, ?_⟩
      · rw [front, List.append_assoc, List.cons_append]
      · have turn : ({ s with ready := before ++ Y :: (between ++ strand :: after') } : Timeline μ).Turn
            { s with running := some strand, ready := (before ++ Y :: between) ++ after' } :=
          .resumes free (by simp)
        rwa [List.append_assoc, List.cons_append] at turn
  · cases between with
    | nil =>
      obtain ⟨same, back⟩ := List.cons.inj tail
      exact .inr (goesOn same.symm (by rw [front, List.append_nil]) back.symm)
    | cons first between =>
      obtain ⟨rfl, rfl⟩ := List.cons.inj tail
      refine .inl ⟨before' ++ between, after, (List.append_assoc ..).symm, ?_⟩
      have turn : ({ s with ready := before ++ Y :: after } : Timeline μ).Turn
          { s with running := some strand, ready := before' ++ (between ++ Y :: after) } :=
        .resumes free (by simp [front])
      rwa [← List.append_assoc] at turn

/-- What a turn makes of a thread that can go on it makes of any other in its place. -/
theorem Turn.swap_ready (turn : s.Turn s') {before after : List (Strand μ)}
    (split : s.ready = before ++ X :: after) (Y : Strand μ) :
    (∃ before' after', s'.ready = before' ++ X :: after' ∧
      ({ s with ready := before ++ Y :: after } : Timeline μ).Turn
        { s' with ready := before' ++ Y :: after' }) ∨
    s'.running = some X ∧ ({ s with ready := before ++ Y :: after } : Timeline μ).Turn
      { s' with running := some Y } := by
  have stays : s'.ready = s.ready → (∀ ready, ({ s with ready := ready } : Timeline μ).Turn
      { s' with ready := ready }) → ∃ before' after', s'.ready = before' ++ X :: after' ∧
        ({ s with ready := before ++ Y :: after } : Timeline μ).Turn
          { s' with ready := before' ++ Y :: after' } := fun same turn =>
    ⟨before, after, same.trans split, turn _⟩
  -- more threads can go on, behind this one
  have grows : ∀ more : List (Strand μ), s'.ready = s.ready ++ more →
      (∀ ready, ({ s with ready := ready } : Timeline μ).Turn { s' with ready := ready ++ more }) →
      ∃ before' after', s'.ready = before' ++ X :: after' ∧
        ({ s with ready := before ++ Y :: after } : Timeline μ).Turn
          { s' with ready := before' ++ Y :: after' } := fun more same turn => by
    have turn := turn (before ++ Y :: after)
    rw [List.append_assoc, List.cons_append] at turn
    refine ⟨before, after ++ more, ?_, turn⟩
    rw [same, split, List.append_assoc, List.cons_append]
  cases turn with
  | @works strand running =>
    obtain ⟨more, works⟩ := s.works_ready strand
    refine .inl (grows more (congrArg (fun s : Timeline μ => s.ready) (works s.ready)) fun ready => ?_)
    exact works ready ▸ .works running
  | @yields strand running => exact .inl (grows [strand] rfl fun _ => .yields running)
  | @resumes strand before' after' free ready =>
    rcases resumes_swap free (split.symm.trans ready) Y with ⟨more, more', same, turn⟩ | ⟨rfl, turn⟩
    · exact .inl ⟨more, more', same, turn⟩
    · exact .inr ⟨rfl, turn⟩
  | wakes free asleep holds => exact .inl (stays rfl fun _ => .wakes free asleep holds)
  | givesUp free asleep due => exact .inl (stays rfl fun _ => .givesUp free asleep due)
  | passes later => exact .inl (stays rfl fun _ => .passes later)
  | @serves c context free hc due =>
    exact .inl (stays (s.ready_serves c) fun ready => s.serves_ready c ready ▸ .serves free hc due)

/-- The thread that goes on works, or stands back, or time goes by. -/
theorem Turn.cases_of_running (turn : s.Turn s') (running : s.running = some X) :
    (∃ now, s.world.clock ≤ now ∧ s' = { s with world := { s.world with clock := now } }) ∨
    s' = { s with running := none, ready := s.ready ++ [X] } ∨ s' = s.works X := by
  cases turn with
  | works there =>
    cases running.symm.trans there
    exact .inr (.inr rfl)
  | yields there =>
    cases running.symm.trans there
    exact .inr (.inl rfl)
  | resumes free | serves free | wakes free | givesUp free => cases free.symm.trans running
  | passes later => exact .inl ⟨_, later, rfl⟩

end Timeline

/-! ### An empty task in the place of another -/

namespace Errand

variable {errand : Errand μ} {empty : Act μ errand.β}

/-- One timeline is another with an empty task in the place of one that nothing was done of. Once the task
was done they are the same. -/
inductive Hollows (errand : Errand μ) (empty : Act μ errand.β) (s s₀ : Timeline μ) : Prop where
  /-- The task waits. -/
  | left {before after : List (Ticket × Strand μ)}
      (split : s.left = before ++ (errand.ticket, errand.strand errand.task) :: after)
      (same : s₀ = { s with left := before ++ (errand.ticket, errand.strand empty) :: after })
  /-- The thread of the context has stood back before it did anything. -/
  | ready {before after : List (Strand μ)}
      (busy : s.world.current errand.context = some errand.ticket)
      (split : s.ready = before ++ errand.strand errand.task :: after)
      (same : s₀ = { s with ready := before ++ errand.strand empty :: after })
  /-- The thread of the context is about to do it. -/
  | begins (begins : errand.Begins s) (same : s₀ = { s with running := some (errand.strand empty) })
  /-- It was done. -/
  | done (finished : errand.ticket ∈ s.moment.finished errand.context) (same : s₀ = s)

/-- All else is the same: the world, and with it the queues, what was told and the clock, what was done,
and who waits for what. -/
theorem Hollows.same (h : errand.Hollows empty s s₀) : s₀.world = s.world ∧
    s₀.past = s.past ∧ s₀.asleep = s.asleep ∧ s₀.errands = s.errands := by
  cases h with
  | left _ same | ready _ _ same | begins _ same | done _ same =>
    rw [same]
    exact ⟨rfl, rfl, rfl, rfl⟩

/-- As long as nothing of a task was done there is such a timeline. -/
theorem Whole.hollows (h : errand.Whole s) (empty : Act μ errand.β) :
    ∃ s₀, errand.Hollows empty s s₀ := by
  cases h with
  | left mem =>
    obtain ⟨before, after, split⟩ := List.append_of_mem mem
    exact ⟨_, .left split rfl⟩
  | ready busy mem =>
    obtain ⟨before, after, split⟩ := List.append_of_mem mem
    exact ⟨_, .ready busy split rfl⟩
  | begins begins => exact ⟨_, .begins begins rfl⟩

/-- A task that does nothing and that nobody waits for frees its context, and that is all. -/
theorem works_of_inert {work : Act μ errand.β} {result : Except Panic errand.β}
    (busy : s.world.current errand.context = some errand.ticket)
    (nobody : ∀ z ∈ s.asleep, z.ticket ≠ some errand.ticket)
    (inert : work { s.world with thread := .toolkit errand.context } =
      .done result { s.world with thread := .toolkit errand.context }) :
    s.works (errand.strand work) = { s with
      running := none
      world := ({ s.world with thread := .toolkit errand.context } : World μ).modifyContext
        errand.context Context.finish
      past := s.past ++ [.finished (errand.context, errand.ticket)] } := by
  obtain ⟨context, hc, current⟩ := Option.bind_eq_some_iff.1 busy
  have answered := Agenda.answer_of_nobody { s.toAgenda with running := none }
    (some (errand.goesOn (some result))) nobody
  rw [Errand.strand, Timeline.works_mk, inert]
  simp [Schedule.take, Schedule.finish, Progress.deeds, Progress.errands, hc, current, answered]

/-- Nobody waits for a task, and it does nothing when it is done now. -/
structure Forsaken (errand : Errand μ) (s : Timeline μ) : Prop where
  orderly : s.Orderly
  nobody : ∀ z ∈ s.asleep, z.ticket ≠ some errand.ticket
  inert : ∃ result, errand.task { s.world with thread := .toolkit errand.context } =
    .done result { s.world with thread := .toolkit errand.context }

namespace Hollows

variable (h : errand.Hollows empty s s₀) (forsaken : errand.Forsaken s)
  (idle : ∀ w, ∃ result, empty w = .done result w)

include forsaken idle in
/-- Done now, the task and the empty one come to the same. -/
theorem works_eq (begins : errand.Begins s) :
    ({ s with running := some (errand.strand empty) } : Timeline μ).works (errand.strand empty) =
      s.works (errand.strand errand.task) ∧
    errand.ticket ∈ (s.works (errand.strand errand.task)).moment.finished errand.context := by
  obtain ⟨result, inert⟩ := forsaken.inert
  obtain ⟨result', inert'⟩ := idle { s.world with thread := .toolkit errand.context }
  have works := works_of_inert begins.busy forsaken.nobody inert
  have works' := works_of_inert (s := { s with running := some (errand.strand empty) }) begins.busy
    forsaken.nobody inert'
  refine ⟨works'.trans works.symm, ?_⟩
  have past := congrArg (fun s' : Timeline μ => s'.past) works
  rw [Moment.finished_of_past (m := s.moment) past]
  exact List.mem_append_right _ (by simp [Deed.finished?])

include h forsaken idle

/-- What comes next comes next with the empty task, -/
theorem forth (turn : s.Turn s') : ∃ s₀', s₀.Turn s₀' ∧ errand.Hollows empty s' s₀' := by
  cases h with
  | left split same =>
    subst same
    rcases turn.swap_left split forsaken.orderly.leftOnce (errand.strand empty) with
      ⟨before', after', split', turn'⟩ | ⟨c, context, hc, free, takes, rfl, -, turn', same⟩
    · exact ⟨_, turn', .left split' rfl⟩
    · have mem : (errand.ticket, errand.strand errand.task) ∈ s.left := by rw [split]; simp
      exact ⟨_, turn', .begins (begins_of_left forsaken.orderly mem hc free takes) same⟩
  | ready busy split same =>
    subst same
    have still := forsaken.orderly.busy_of_ready turn
      (show errand.strand errand.task ∈ s.ready by rw [split]; simp) rfl busy
    rcases turn.swap_ready split (errand.strand empty) with
      ⟨before', after', split', turn'⟩ | ⟨running, turn'⟩
    · exact ⟨_, turn', .ready still split' rfl⟩
    · exact ⟨_, turn', .begins ⟨still, running⟩ rfl⟩
  | begins begins same =>
    subst same
    rcases turn.cases_of_running begins.running with ⟨now, later, rfl⟩ | rfl | rfl
    · exact ⟨_, .passes later, .begins ⟨begins.busy, begins.running⟩ rfl⟩
    · exact ⟨_, .yields rfl, .ready begins.busy rfl rfl⟩
    · obtain ⟨same, finished⟩ := works_eq forsaken idle begins
      exact ⟨_, .works rfl, .done finished same⟩
  | done finished same =>
    subst same
    exact ⟨s', turn, .done ((turn.past.filterMap _).subset finished) rfl⟩

/-- and the other way round. -/
theorem back (turn : s₀.Turn s₀') : ∃ s', s.Turn s' ∧ errand.Hollows empty s' s₀' := by
  cases h with
  | @left before after split same =>
    have original : { s₀ with left := before ++ (errand.ticket, errand.strand errand.task) :: after } = s := by
      rw [same, ← split]
    have once : (s₀.left.map Prod.fst).Nodup := by
      have once := forsaken.orderly.leftOnce
      rw [split] at once
      rw [same]
      simpa using once
    rcases turn.swap_left (congrArg (fun s' : Timeline μ => s'.left) same) once
        (errand.strand errand.task) with
      ⟨before', after', split', turn'⟩ | ⟨c, context, hc, free, takes, served, running, turn', same'⟩
    · rw [original] at turn'
      exact ⟨_, turn', .left rfl (by rw [← split'])⟩
    · rw [original] at turn' same'
      have mem : (errand.ticket, errand.strand errand.task) ∈ s.left := by rw [split]; simp
      have there : s.world.contexts[c]? = some context := by
        rw [same] at hc
        exact hc
      refine ⟨_, turn', .begins (begins_of_left forsaken.orderly mem there free takes) ?_⟩
      rw [same', ← running]
  | @ready before after busy split same =>
    have original : { s₀ with ready := before ++ errand.strand errand.task :: after } = s := by
      rw [same, ← split]
    have mem : errand.strand errand.task ∈ s.ready := by rw [split]; simp
    rcases turn.swap_ready (congrArg (fun s' : Timeline μ => s'.ready) same)
        (errand.strand errand.task) with ⟨before', after', split', turn'⟩ | ⟨running, turn'⟩
    · rw [original] at turn'
      exact ⟨_, turn', .ready (forsaken.orderly.busy_of_ready turn' mem rfl busy) rfl (by rw [← split'])⟩
    · rw [original] at turn'
      exact ⟨_, turn', .begins ⟨forsaken.orderly.busy_of_ready turn' mem rfl busy, rfl⟩
        (by rw [← running])⟩
  | begins begins same =>
    subst same
    rcases turn.cases_of_running rfl with ⟨now, later, rfl⟩ | rfl | rfl
    · exact ⟨_, .passes later, .begins ⟨begins.busy, begins.running⟩ rfl⟩
    · exact ⟨_, .yields begins.running, .ready begins.busy rfl rfl⟩
    · obtain ⟨same, finished⟩ := works_eq forsaken idle begins
      exact ⟨_, .works begins.running, .done finished same⟩
  | done finished same =>
    subst same
    exact ⟨s₀', turn, .done ((turn.past.filterMap _).subset finished) rfl⟩

end Hollows

end Errand

/-! ### Calls that were given up -/

namespace Timeline

variable {errand : Errand μ}

/-- Who has gone on without waiting for a task any longer never waits for it again. -/
theorem Reaches.gone (later : s.Reaches s') (h : s.Orderly) (called : errand ∈ s.errands)
    (left : errand.sleeper ∉ s.asleep) : errand.sleeper ∉ s'.asleep := by
  induction later with
  | refl => exact left
  | tail before turn ih =>
    exact (Reaches.orderly before h).gone turn ((Reaches.errands before).subset called) ih

/-- Whoever waits, but not for ever, may have waited long enough before anything else happens. -/
theorem gives_up {z : Sleeper μ} {deadline : Instant} (free : s.running = none) (asleep : z ∈ s.asleep)
    (due : z.deadline = some deadline) : ∃ s₁ s₂, s.Reaches s₁ ∧ z.GoesOn false s₁ s₂ := by
  obtain ⟨before, after, split⟩ := List.append_of_mem asleep
  have passes : s.Turn { s with world := { s.world with clock := s.world.clock + deadline } } :=
    .passes (Nat.le_add_right _ _)
  refine ⟨_, _, passes.reaches, .late free split fun deadline' due' => ?_⟩
  cases due.symm.trans due'
  exact Nat.le_add_left _ _

/-- Nobody is asleep in two places: who goes on does not wait any more. -/
theorem Orderly.awake (h : s.Orderly) {z : Sleeper μ} {b : Bool} (goesOn : z.GoesOn b s s') :
    z ∉ s'.asleep := by
  have once : ∀ {before after : List (Sleeper μ)}, s.asleep = before ++ z :: after →
      z ∉ before ++ after := by
    intro before after asleep twice
    have apart := h.apart
    rw [Agenda.places, List.map_append, asleep] at apart
    have once := (List.nodup_append.1 apart).2.1
    rw [List.map_map, List.map_append, List.map_cons, List.nodup_middle, List.nodup_cons,
      ← List.map_append] at once
    exact once.1 (List.mem_map_of_mem twice)
  cases goesOn with
  | held free asleep holds => exact once asleep
  | late free asleep due => exact once asleep

end Timeline

namespace Errand

/-- What holds of a call that is given up in some turn. -/
structure Traceless (errand : Errand μ) (empty : Act μ errand.β) (s s' : Timeline μ) : Prop where
  /-- The caller goes on, and that is all. -/
  lapses : ∃ asleep ⊆ s.asleep, s' = { s with running := some (errand.goesOn none), asleep }
  /-- When the task is done some time, its context is free again, and that is all. -/
  runs : ∀ {s₁ : Timeline μ}, s'.Reaches s₁ → errand.Begins s₁ →
    s₁.works (errand.strand errand.task) = { s₁ with
      running := none
      world := ({ s₁.world with thread := .toolkit errand.context } : World μ).modifyContext
        errand.context Context.finish
      past := s₁.past ++ [.finished (errand.context, errand.ticket)] }
  /-- With an empty task in its place all that comes up would come up as well, in the same world, and
  nothing else. -/
  hollow : ∃ s₀, errand.Hollows empty s' s₀ ∧
    (∀ {s₁}, s'.Reaches s₁ → ∃ s₂, s₀.Reaches s₂ ∧ errand.Hollows empty s₁ s₂ ∧ s₂.world = s₁.world) ∧
    ∀ {s₂}, s₀.Reaches s₂ → ∃ s₁, s'.Reaches s₁ ∧ errand.Hollows empty s₁ s₂ ∧ s₂.world = s₁.world

section Hollow

variable {errand : Errand μ} {empty : Act μ errand.β}
  (forsaken : ∀ {s'}, s.Reaches s' → errand.Forsaken s')
  (idle : ∀ w, ∃ result, empty w = .done result w)

include forsaken idle

/-- Whatever comes up comes up with the empty task, -/
theorem Hollows.along (h : errand.Hollows empty s s₀) (later : s.Reaches s') :
    ∃ s₀', s₀.Reaches s₀' ∧ errand.Hollows empty s' s₀' := by
  induction later with
  | refl => exact ⟨s₀, .refl _, h⟩
  | tail before turn ih =>
    obtain ⟨s₁, reaches, hollows⟩ := ih
    obtain ⟨s₂, turn', hollows'⟩ := hollows.forth (forsaken before) idle turn
    exact ⟨s₂, reaches.trans turn'.reaches, hollows'⟩

/-- and the other way round. -/
theorem Hollows.along_back (h : errand.Hollows empty s s₀) (later : s₀.Reaches s₀') :
    ∃ s', s.Reaches s' ∧ errand.Hollows empty s' s₀' := by
  induction later with
  | refl => exact ⟨s, .refl _, h⟩
  | tail before turn ih =>
    obtain ⟨s₁, reaches, hollows⟩ := ih
    obtain ⟨s₂, turn', hollows'⟩ := hollows.back (forsaken reaches) idle turn
    exact ⟨s₂, reaches.trans turn'.reaches, hollows'⟩

end Hollow

section GivenUp

variable {errand : Errand μ} {empty : Act μ errand.β} {s₁ s₂ s₃ : Timeline μ}

/-- Nothing was done of a task as long as its caller waits, if it does not stop. -/
theorem whole_of_waits (h : s₁.Orderly) (called : errand ∈ s₁.errands)
    (mem : (errand.ticket, errand.strand errand.task) ∈ s₁.left)
    (done : ∀ {s}, s₁.Reaches s → ∃ result w,
      errand.task { s.world with thread := .toolkit errand.context } = .done result w)
    (before : s₁.Reaches s₂) (waits : errand.sleeper ∈ s₂.asleep) : errand.Whole s₂ := by
  refine ((Whole.left mem).reaches h before).resolve_right ?_
  -- had it been done before, its caller would not wait any more
  rintro ⟨s, reaches, begins, since⟩
  have orderly := reaches.orderly h
  have known := reaches.errands.subset called
  have turn : s.Turn (s.works (errand.strand errand.task)) := .works begins.running
  obtain ⟨result, w, ends⟩ := done reaches
  have ends := begins.ends orderly known ends
  refine since.gone (turn.orderly orderly) (turn.errands.subset known) (fun still => ?_) waits
  by_cases asleep : errand.sleeper ∈ s.asleep
  · rw [ends.answered asleep] at still
    simpa [Errand.sleeper] using (List.mem_filter.1 still).2
  · exact orderly.gone turn known asleep still

/-- A call of a task that does nothing leaves no trace when it is given up. -/
theorem traceless (h : s₁.Lived) (called : errand ∈ s₁.errands)
    (mem : (errand.ticket, errand.strand errand.task) ∈ s₁.left)
    (inert : ∀ {s}, s₁.Reaches s → ∃ result,
      errand.task { s.world with thread := .toolkit errand.context } =
        .done result { s.world with thread := .toolkit errand.context })
    (idle : ∀ w, ∃ result, empty w = .done result w) (before : s₁.Reaches s₂)
    (late : errand.sleeper.GoesOn false s₂ s₃) : errand.Traceless empty s₂ s₃ := by
  have orderly := before.orderly h.orderly
  have turn := late.turn
  have reaches := before.trans turn.reaches
  have forsaken : ∀ {s}, s₃.Reaches s → errand.Forsaken s := by
    intro s later
    have gone := later.gone (turn.orderly orderly) (reaches.errands.subset called) (orderly.awake late)
    have ordered := later.orderly (turn.orderly orderly)
    have known := (reaches.trans later).errands.subset called
    exact ⟨ordered, ordered.nobody known gone, inert (reaches.trans later)⟩
  cases late with
  | @late _ front back free asleep due =>
    have waits : errand.sleeper ∈ s₂.asleep := by rw [asleep]; simp
    have whole := whole_of_waits h.orderly called mem
      (fun later => (inert later).imp fun _ inert => ⟨_, inert⟩) before waits
    have whole := (whole.turn orderly turn).resolve_right fun ⟨begins, _⟩ => by
      cases free.symm.trans begins.running
    obtain ⟨s₀, hollows⟩ := whole.hollows empty
    refine ⟨⟨front ++ back, ?_, rfl⟩, fun later begins => ?_, s₀, hollows, fun later => ?_, fun later => ?_⟩
    · rw [asleep]
      exact ((List.sublist_cons_self _ back).append_left front).subset
    · obtain ⟨result, does⟩ := (forsaken later).inert
      exact works_of_inert begins.busy (forsaken later).nobody does
    · obtain ⟨s', reaches, hollows'⟩ := hollows.along forsaken idle later
      exact ⟨s', reaches, hollows', hollows'.same.1⟩
    · obtain ⟨s, reaches, hollows'⟩ := hollows.along_back forsaken idle later
      exact ⟨s, reaches, hollows', hollows'.same.1⟩

end GivenUp

end Errand

/-! ### Readings that were given up -/

section Reading

variable {a : Adapter} {read : Inquiry (Except Unavailable α)} {context accepted : Context Ticket}
  {thread : Thread} {caller : Except Panic β → Option (Strand μ)}

/-- What a node reads from a table that is not known to be gone is a call, if it is not read on the
thread of its context. -/
theorem Adapter.tryRead_calls (read : Inquiry (Except Unavailable α)) (latch : w.peers[a.peer]? = some ⟨t, c, false⟩)
    (off : w.thread ≠ .toolkit c) (hc : w.contexts[c]? = some context)
    (ok : context.accept w.tickets = .ok accepted) (fits : context.timeout.FitsClock w.clock)
    (rest : Except Panic (Except Unavailable α) → Act μ β) :
    ∃ next, ((a.tryRead read).attempt >>= rest) w =
        .calling c w.tickets context.timeout (consult t (Reading.ofLive read)) (w.handed c accepted)
          next ∧
      ∀ later, ∃ e, next none later =
        rest (.ok (.error (.timedOut context.timeout))) (later.tell e) := by
  obtain ⟨next, calls, -, untold⟩ :=
    handOff_calls none off (consult t (Reading.ofLive read)) hc ok fits
  have query := Peer.query_of_unlatched latch read
  rw [Act.bind_apply, calls] at query
  refine ⟨fun answer later => ((next answer later).bind (Peer.settle a.peer)).attempt.bind rest, ?_,
    fun later => ?_⟩
  · rw [Act.bind_apply, Act.attempt, Adapter.tryRead, query]
    rfl
  · obtain ⟨e, told⟩ := untold later
    refine ⟨e, ?_⟩
    have unknown : (Peer.flatten (.error (.timedOut context.timeout)) : Except Unavailable α) ≠
        .error .stalePeer := by simp [Peer.flatten]
    show ((next none later).bind (Peer.settle a.peer)).attempt.bind rest = _
    rw [told]
    show ((Peer.settle a.peer (.error (.timedOut context.timeout)) (later.tell e)).attempt).bind rest = _
    rw [Peer.settle_of_ne unknown]
    rfl

/-- **A reading of an editable table leaves no trace when it is given up.** Let a thread come to what a
node reads from a table, in a world in which all threads keep the table editable; `rest` is whatever it
does with the outcome. If the reading is not made on the thread of the table's context, and the context
accepts it, the thread waits. Whenever it gives up it goes on with the cause, of which nodes make "no
value", and something was told, and nothing else was done. Whenever the reading is made after that,
whatever was edited, disposed of, dropped, taken out or stopped until then, the world is as it was but
that the context is free again; and what comes up at any time after the time-out is what would come up
if a task were in its place that does nothing. -/
theorem timed_out_reads_leave_no_trace (h : s.Lived) (keeps : s.toAgenda.Keeps (.editable t))
    (editable : s.world.Editable t) {work : Act μ β} {rest : Except Panic (Except Unavailable α) → Act μ β}
    (running : s.running = some (.mk thread work caller))
    (latch : w.peers[a.peer]? = some ⟨t, c, false⟩) (off : w.thread ≠ .toolkit c)
    (hc : w.contexts[c]? = some context) (ok : context.accept w.tickets = .ok accepted)
    (fits : context.timeout.FitsClock w.clock)
    (comes : work { s.world with thread := thread } = ((a.tryRead read).attempt >>= rest) w) :
    ∃ next : Option (Except Panic (Option (Except Unavailable α))) → Act μ β,
      let errand : Errand μ := ⟨c, w.tickets, consult t (Reading.ofLive read), thread, next, caller,
        s.world.after context.timeout⟩
      errand.sleeper ∈ (s.works (.mk thread work caller)).asleep ∧
      (∀ later, ∃ e, next none later =
        rest (.ok (.error (.timedOut context.timeout))) (later.tell e)) ∧
      (∀ question later, ∃ e, (a.degrade question (.error (.timedOut context.timeout)) : Act μ (Option α))
        later = .done (.ok none) (later.tell e)) ∧
      ∀ {s₁ s₂ : Timeline μ}, (s.works (.mk thread work caller)).Reaches s₁ →
        errand.sleeper.GoesOn false s₁ s₂ → errand.Traceless (pure none) s₁ s₂ := by
  obtain ⟨next, calls, untold⟩ := Adapter.tryRead_calls read latch off hc ok fits rest
  rw [calls] at comes
  have clock : w.clock = s.world.clock := (Conduct.clock_of_hands (comes ▸ h.running_keeps running).1 :)
  have deadline : (w.handed c accepted).after context.timeout = s.world.after context.timeout :=
    congrArg (· + context.timeout.nanos) clock
  have turn : s.Turn (s.works (.mk thread work caller)) := .works running
  rw [← deadline]
  refine ⟨next, ?_, untold, fun question later => ⟨_, rfl⟩, fun before late => ?_⟩
  · rw [Timeline.works_mk, comes]
    exact List.mem_append_right _ (List.mem_singleton_self _)
  · refine Errand.traceless (h.reaches turn.reaches) ?_ ?_ (fun {s'} later => ?_) (fun _ => ⟨_, rfl⟩)
      before late
    · rw [Timeline.works_mk, comes]
      exact List.mem_append_right _ (List.mem_singleton_self _)
    · rw [Timeline.works_mk, comes]
      exact List.mem_append_right _ (List.mem_singleton_self _)
    · have still : s'.world.Editable t :=
        ((turn.reaches.trans later).leaves Conduct.editable_lasting keeps editable).1
      exact consult_of_editable (w := { s'.world with thread := .toolkit c }) still (Reading.ofLive read)

end Reading

/-- Starts a context, and makes a table and a peer for it. -/
def World.furnished (w : World Unit) : World Unit :=
  { w with
    contexts := w.contexts ++ [.start .default]
    tables := w.tables ++ [some (.grid (.ofGrid (.ofHeaders "" [])))]
    peers := w.peers ++ [⟨0, 0, false⟩] }

theorem World.Editable.furnished {w : World Unit} (h : w.Editable 0) : w.furnished.Editable 0 := by
  intro table there
  unfold World.table? World.furnished at there
  cases tables : w.tables with
  | nil =>
    simp only [tables, List.nil_append, List.getElem?_cons_zero, Option.join_some, Option.some.injEq] at there
    exact ⟨_, there.symm⟩
  | cons first more =>
    refine h table ?_
    simpa [World.table?, tables] using there

/-- A node of the table. -/
def tableNode : Adapter := ⟨⟨0, 1, rfl⟩, .table ⟨0, 1, rfl⟩, none, 0, 0⟩

/-- Counts the rows of the table, and drops it. -/
def readThenDrop : Act Unit Unit := do
  modify World.furnished
  let _ ← tableNode.tryRead Reading.rowCount
  modify (·.setTable 0 none)

theorem readThenDrop_keeps {C : Conduct Unit} (steps : Scope.any.Steps C)
    (furnishes : ∀ {w}, C.Finds w → C.Along w w.furnished)
    (drops : ∀ {w₀ w}, C.Along w₀ w → C.Along w₀ (w.setTable 0 none)) :
    (Strand.mk (.client 0) readThenDrop fun _ => none).Keeps C := by
  refine Strand.keeps_of_nobody fun w _ found => ?_
  have reads := (Scope.open_any.deeds steps).query (p := tableNode.peer) trivial Reading.reports_rowCount
  have keeps : readThenDrop.KeepsFrom C w w (fun _ => True) fun _ => True := by
    refine .modify (.bind (reads.keeps (furnishes found)) fun _ _ _ along _ => ?_)
    exact .of_done rfl (drops along) trivial
  exact keeps.progress.mono fun _ _ _ => trivial

/-- The thread gives up, and goes on to drop the table. -/
theorem timed_out_reads_leave_no_trace_of_dropped :
    ∃ (next : Option (Except Panic (Option (Except Unavailable Nat))) → Act Unit Unit)
      (s₁ s₂ : Timeline Unit),
      let errand : Errand Unit := ⟨0, 0, consult 0 (Reading.ofLive Reading.rowCount), .client 0, next,
        fun _ => none, 500000000⟩
      s₁.Lived ∧
      (∀ later, ∃ e, next none later = .done (.ok ()) ((later.tell e).setTable 0 none)) ∧
      errand.sleeper.GoesOn false s₁ s₂ ∧ errand.Traceless (pure none) s₁ s₂ := by
  have regular : (Strand.mk (.client 0) readThenDrop fun _ => none).Keeps .regular :=
    readThenDrop_keeps Scope.regular_steps
      (fun _ => ⟨rfl, .single (.spawn _ Context.spawn_default), rfl, rfl, rfl⟩)
      fun along => ⟨along.thread, { along.leaves with }⟩
  have editable : (Strand.mk (.client 0) readThenDrop fun _ => none).Keeps (.editable 0) :=
    readThenDrop_keeps Scope.editable_steps (fun found => ⟨rfl, found.furnished⟩)
      fun along => ⟨along.thread, along.leaves.setTable fun _ _ none => by cases none⟩
  have lived : (Timeline.start () readThenDrop).Lived := ⟨_, _, regular, .refl _⟩
  have comes : readThenDrop { (Timeline.start () readThenDrop).world with thread := .client 0 } =
      ((tableNode.tryRead Reading.rowCount).attempt >>=
        Act.orPanic fun _ => modify (·.setTable 0 none)) (World.furnished (.empty ())) := by
    unfold readThenDrop
    rw [Act.modify_bind, Act.bind_eq_attempt]
    rfl
  have running : (Timeline.start () readThenDrop).running =
      some (.mk (.client 0) readThenDrop fun _ => none) := rfl
  obtain ⟨next, waits, untold, -, traceless⟩ := timed_out_reads_leave_no_trace (t := 0) (c := 0) lived
    ⟨fun same => Option.some.inj same ▸ editable, nofun, nofun, nofun⟩ (fun _ there => by cases there)
    running rfl (by decide) rfl rfl (by decide) comes
  have free : ((Timeline.start () readThenDrop).works
      (.mk (.client 0) readThenDrop fun _ => none)).running = none := by
    obtain ⟨_, calls, -⟩ := Adapter.tryRead_calls (a := tableNode) Reading.rowCount
      (w := World.furnished (.empty ())) rfl (by decide) rfl rfl (by decide)
      (Act.orPanic fun _ => modify (·.setTable 0 none))
    rw [Timeline.works_mk, comes, calls]
    rfl
  have works := (Timeline.Turn.works running).reaches
  obtain ⟨s₁, s₂, passes, late⟩ := Timeline.gives_up free waits rfl
  exact ⟨next, s₁, s₂, lived.reaches (works.trans passes), untold, late, traceless passes late⟩

end TableAccess
