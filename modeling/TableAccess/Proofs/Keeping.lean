import TableAccess.Proofs.Serving

/-!
# What all threads keep to

If every thread keeps to a conduct, those that wait and the tasks that have not begun included, then
the threads they start and the tasks they hand over do too. So the world is at every later time what
the conduct leaves of it, if that does not depend on what becomes of contexts.

## The model

* `World.Aside` — something was done to contexts, time has gone by, and another thread goes on.
* `Conduct.Lasting` — a conduct that leaves the same whatever is done to contexts.
* `Agenda.Keeps` — all threads keep to a conduct.
* `Reaches.leaves` — what is left of the world at every later time.
-/

namespace TableAccess

variable {μ α β : Type} {C : Conduct μ}

/-- Nothing was done but to contexts; time may have gone by, and another thread may go on. -/
def World.Aside (w w' : World μ) : Prop :=
  w' = { w with
    thread := w'.thread, contexts := w'.contexts, tickets := w'.tickets, clients := w'.clients
    clock := w'.clock }

theorem World.Accepts.aside {c : ContextId} {k : Ticket} {w w' : World μ} (h : w.Accepts c k w') :
    w.Aside w' := by
  unfold Aside
  rw [h.rest]

/-- A conduct leaves the same whatever is done to contexts, and again and again. -/
structure Conduct.Lasting (C : Conduct μ) : Prop where
  /-- Whatever is done to contexts. -/
  aside : ∀ {w w' : World μ}, w.Aside w' → C.Finds w → C.Leaves w w'
  /-- What is left is found again, -/
  finds : ∀ {w w' : World μ}, C.Finds w → C.Leaves w w' → C.Finds w'
  /-- and what is left of that is left. -/
  trans : ∀ {w w' w'' : World μ}, C.Leaves w w' → C.Leaves w' w'' → C.Leaves w w''

/-- All threads keep to a conduct. -/
structure Agenda.Keeps (C : Conduct μ) (a : Agenda μ) : Prop where
  running : ∀ {strand}, a.running = some strand → strand.Keeps C
  ready : ∀ strand ∈ a.ready, strand.Keeps C
  asleep : ∀ z ∈ a.asleep, ∀ b, (z.next b).Keeps C
  left : ∀ entry ∈ a.left, entry.2.Keeps C

namespace Agenda.Keeps

variable {a : Agenda μ}

/-- Nobody goes on. -/
theorem vacated (h : a.Keeps C) : Agenda.Keeps C { a with running := none } :=
  { h with running := nofun }

/-- One of the threads goes on, and the others are as they were. -/
theorem goesOn {strand : Strand μ} (h : a.Keeps C) (keeps : strand.Keeps C)
    {ready : List (Strand μ)} {asleep : List (Sleeper μ)} (readyBefore : ready ⊆ a.ready := by exact .refl _)
    (asleepBefore : asleep ⊆ a.asleep := by exact .refl _) :
    Agenda.Keeps C { a with running := some strand, ready, asleep } where
  running same := Option.some.inj same ▸ keeps
  ready strand' mem := h.ready strand' (readyBefore mem)
  asleep z mem := h.asleep z (asleepBefore mem)
  left := h.left

theorem sleeps {z : Sleeper μ} (h : a.Keeps C) (keeps : ∀ b, (z.next b).Keeps C) :
    Agenda.Keeps C { a with asleep := a.asleep ++ [z] } :=
  { h with asleep := fun z' mem => (List.mem_append.1 mem).elim (h.asleep z') fun new =>
      List.mem_singleton.1 new ▸ keeps }

theorem leaves {ticket : Ticket} {strand : Strand μ} (h : a.Keeps C) (keeps : strand.Keeps C) :
    Agenda.Keeps C { a with left := a.left ++ [(ticket, strand)] } :=
  { h with left := fun entry mem => (List.mem_append.1 mem).elim (h.left entry) fun new =>
      List.mem_singleton.1 new ▸ keeps }

theorem waits {strand : Strand μ} (h : a.Keeps C) (keeps : strand.Keeps C) :
    Agenda.Keeps C { a with ready := a.ready ++ [strand] } :=
  { h with ready := fun strand' mem => (List.mem_append.1 mem).elim (h.ready strand') fun new =>
      List.mem_singleton.1 new ▸ keeps }

/-- Who still waits for a result goes on with it. -/
theorem answer {ticket : Option Ticket} {caller : Option (Strand μ)} (h : a.Keeps C)
    (keeps : Strand.WaiterKeeps C caller) : (a.answer ticket caller).Keeps C := by
  unfold Agenda.answer
  split
  · rename_i strand _
    exact { h.waits (Strand.waiterKeeps_some.1 keeps) with
      asleep := fun z mem => h.asleep z (List.mem_filter.1 mem).1 }
  · exact h

/-- What the work of a thread has come to keeps to the conduct. -/
theorem take {thread : Thread} {caller : Except Panic β → Option (Strand μ)} {w : World μ}
    {progress : Progress μ β} (lasting : C.Lasting) (h : a.Keeps C) (found : C.Finds w)
    (here : w.thread = thread)
    (keeps : progress.Keeps C (fun _ result => Strand.WaiterKeeps C (caller result)) w) :
    C.Leaves w (Schedule.take a thread caller progress).world ∧
      (Schedule.take a thread caller progress).toAgenda.Keeps C := by
  have aside : ∀ {w₁ w₂ : World μ}, C.Along w w₁ → w₁.Aside w₂ → C.Leaves w w₂ :=
    fun along aside => lasting.trans along.leaves (lasting.aside aside (lasting.finds found along.leaves))
  subst here
  cases progress with
  | done result w' =>
    unfold Schedule.take Schedule.finish
    cases w.thread with
    | client => exact ⟨keeps.1.leaves, h⟩
    | toolkit c => exact ⟨aside keeps.1 rfl, h.answer keeps.2⟩
  | awaiting holds bound w' next =>
    exact ⟨keeps.1.leaves, h.sleeps fun b => Strand.keeps_iff.2 (keeps.2 b)⟩
  | leaving c ticket task w' next =>
    obtain ⟨⟨w₁, along, accepts⟩, does, goesOn⟩ := keeps
    exact ⟨aside along accepts.aside,
      (h.leaves (Strand.keeps_of_nobody does)).goesOn (Strand.keeps_iff.2 goesOn)⟩
  | calling c ticket bound task w' next =>
    obtain ⟨⟨w₁, along, accepts⟩, does, goesOn⟩ := keeps
    refine ⟨aside along accepts.aside, (h.leaves (Strand.keeps_iff.2 fun later there found => ?_)).sleeps
      fun _ => Strand.keeps_iff.2 goesOn⟩
    exact (does later there found).mono fun _ _ answered =>
      Strand.waiterKeeps_some.2 (Strand.keeps_iff.2 answered)
  | starting started task w' next =>
    obtain ⟨⟨w₁, along, -, rfl⟩, does, goesOn⟩ := keeps
    exact ⟨aside along rfl, (h.waits (Strand.keeps_of_nobody does)).goesOn (Strand.keeps_iff.2 goesOn)⟩

end Agenda.Keeps

namespace Timeline

variable {s s' : Timeline μ}

/-- With every turn the threads keep to the conduct. -/
theorem Turn.leaves (lasting : C.Lasting) (keeps : s.toAgenda.Keeps C) (found : C.Finds s.world)
    (turn : s.Turn s') : C.Leaves s.world s'.world ∧ s'.toAgenda.Keeps C := by
  have still : C.Leaves s.world s.world := lasting.aside rfl found
  cases turn with
  | @works strand running =>
    obtain ⟨thread, work, caller⟩ := strand
    have began : C.Leaves s.world { s.world with thread } := lasting.aside rfl found
    have found' := lasting.finds found began
    obtain ⟨leaves, rest⟩ := keeps.vacated.take lasting found' rfl
      (Strand.keeps_iff.1 (keeps.running running) _ rfl found')
    exact ⟨lasting.trans began leaves, rest⟩
  | yields running => exact ⟨still, keeps.vacated.waits (keeps.running running)⟩
  | @resumes strand before after free ready =>
    have there : strand ∈ s.ready := by rw [ready]; simp
    refine ⟨still, keeps.goesOn (keeps.ready strand there) ?_⟩
    rw [ready]
    exact ((List.sublist_cons_self strand after).append_left before).subset
  | @serves c context free hc due =>
    have served : (s.serves c).world = s.world.modifyContext c Context.next :=
      s.toSchedule.serve_world c
    refine ⟨served ▸ lasting.aside rfl found, ?_⟩
    show (s.toSchedule.serve c).toAgenda.Keeps C
    unfold Schedule.serve
    dsimp only
    split
    · rename_i ticket _
      refine { keeps with running := fun {strand} begins => ?_, left := fun entry mem => ?_ }
      · obtain ⟨before, after, e, -⟩ := List.lookup_eq_some_iff.1 begins
        exact keeps.left (ticket, strand) (by rw [e]; simp)
      · exact keeps.left entry (List.mem_filter.1 mem).1
    · exact { keeps with }
  | @wakes z before after free asleep holds | @givesUp z before after free asleep due =>
    have there : z ∈ s.asleep := by rw [asleep]; simp
    refine ⟨still, keeps.goesOn (keeps.asleep z there _) (List.Subset.refl _) ?_⟩
    rw [asleep]
    exact ((List.sublist_cons_self z after).append_left before).subset
  | passes later => exact ⟨lasting.aside rfl found, { keeps with }⟩

/-- What a conduct leaves of the world is left at every later time, if all threads keep to it. -/
theorem Reaches.leaves (lasting : C.Lasting) (keeps : s.toAgenda.Keeps C) (found : C.Finds s.world)
    (later : s.Reaches s') : C.Leaves s.world s'.world ∧ s'.toAgenda.Keeps C := by
  refine later.keeps (P := fun s' => C.Leaves s.world s'.world ∧ s'.toAgenda.Keeps C)
    ⟨lasting.aside rfl found, keeps⟩ fun turn ih => ?_
  obtain ⟨leaves, keeps'⟩ := turn.leaves lasting ih.2 (lasting.finds found ih.1)
  exact ⟨lasting.trans ih.1 leaves, keeps'⟩

end Timeline

end TableAccess
