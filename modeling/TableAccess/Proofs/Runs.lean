import TableAccess.Peer

/-!
# Runs

One way an act can take, from the world it begins in to the one it ends in. Where it stops it finds
whatever world the others may leave behind, and it may be given any answer: a result of whatever
value, a panic, or none. What holds of every run holds whatever those it asked made of the question.

## The model

* `Progress.goOn` — what comes after an act, whether it ends with a value or with a panic.
* `Progress.Ends` — an act that has come so far can end with a result in a world.
* `Act.Ends` — an act can.
* `Ends.bind`, `Ends.attempt`, `Ends.each_cons`, … — the runs of an act are made of runs of its parts.
* `handOff_of_here`, `handOff_of_refused`, `handOff_calls`, `handOff_overruns` — what a hand-off comes to
  first.
* `Peer.query_of_unlatched` — a reading is one hand-off; `Peer.settle` — what is made of its outcome.
-/

namespace TableAccess

variable {μ α β : Type} {R : World μ → World μ → Prop} {w w' : World μ}

/-- Goes on with a value, and panics on with a panic. -/
def Act.orPanic (f : α → Act μ β) : Except Panic α → Act μ β
  | .ok a => f a
  | .error p => throw p

namespace Progress

/-- After an act that has come so far, goes on with whatever it ends with. -/
def goOn : Progress μ α → (Except Panic α → Act μ β) → Progress μ β
  | .done result w, k => k result w
  | .awaiting holds bound w next, k => .awaiting holds bound w fun b w' => (next b w').goOn k
  | .leaving c ticket task w next, k => .leaving c ticket task w fun w' => (next w').goOn k
  | .calling c ticket bound task w next, k =>
    .calling c ticket bound task w fun r w' => (next r w').goOn k
  | .starting thread task w next, k => .starting thread task w fun w' => (next w').goOn k

theorem bind_eq_goOn (p : Progress μ α) (f : α → Act μ β) : p.bind f = p.goOn (Act.orPanic f) := by
  induction p with
  | done result w => cases result <;> rfl
  | awaiting holds bound w next ih => simp only [bind, goOn, ih]
  | leaving c ticket task w next _ ih => simp only [bind, goOn, ih]
  | calling c ticket bound task w next _ ih => simp only [bind, goOn, ih]
  | starting thread task w next _ ih => simp only [bind, goOn, ih]

theorem attempt_eq_goOn (p : Progress μ α) : p.attempt = p.goOn pure := by
  induction p with
  | done result w => rfl
  | awaiting holds bound w next ih => simp only [attempt, goOn, ih]
  | leaving c ticket task w next _ ih => simp only [attempt, goOn, ih]
  | calling c ticket bound task w next _ ih => simp only [attempt, goOn, ih]
  | starting thread task w next _ ih => simp only [attempt, goOn, ih]

/-- An act that has come so far can end with a result in a world. While it has stopped the others
change the world as `R` lets them. -/
def Ends {α : Type} (R : World μ → World μ → Prop) (r : Except Panic α) (w' : World μ) :
    Progress μ α → Prop
  | .done result w => result = r ∧ w = w'
  | .awaiting _ _ w next => ∃ b later, R w later ∧ (next b later).Ends R r w'
  | .leaving _ _ _ w next => ∃ later, R w later ∧ (next later).Ends R r w'
  | .calling _ _ _ _ w next => ∃ answer later, R w later ∧ (next answer later).Ends R r w'
  | .starting _ _ w next => ∃ later, R w later ∧ (next later).Ends R r w'

/-- What goes on with the result of an act ends as it does where the act ended. -/
theorem Ends.goOn {p : Progress μ α} {k : Except Panic α → Act μ β} {r : Except Panic β}
    (h : (p.goOn k).Ends R r w') : ∃ result w, p.Ends R result w ∧ (k result w).Ends R r w' := by
  induction p with
  | done result w => exact ⟨result, w, ⟨rfl, rfl⟩, h⟩
  | awaiting holds bound w next ih =>
    obtain ⟨b, later, between, rest⟩ := h
    obtain ⟨result, w₁, first, last⟩ := ih b later rest
    exact ⟨result, w₁, ⟨b, later, between, first⟩, last⟩
  | leaving c ticket task w next _ ih =>
    obtain ⟨later, between, rest⟩ := h
    obtain ⟨result, w₁, first, last⟩ := ih later rest
    exact ⟨result, w₁, ⟨later, between, first⟩, last⟩
  | calling c ticket bound task w next _ ih =>
    obtain ⟨answer, later, between, rest⟩ := h
    obtain ⟨result, w₁, first, last⟩ := ih answer later rest
    exact ⟨result, w₁, ⟨answer, later, between, first⟩, last⟩
  | starting thread task w next _ ih =>
    obtain ⟨later, between, rest⟩ := h
    obtain ⟨result, w₁, first, last⟩ := ih later rest
    exact ⟨result, w₁, ⟨later, between, first⟩, last⟩

/-- An act after another ends as it does where the first one ended, or with the panic of the first
one. -/
theorem Ends.bind {p : Progress μ α} {f : α → Act μ β} {r : Except Panic β}
    (h : (p.bind f).Ends R r w') :
    (∃ a w, p.Ends R (.ok a) w ∧ (f a w).Ends R r w') ∨
      ∃ e, r = .error e ∧ p.Ends R (.error e) w' := by
  rw [bind_eq_goOn] at h
  obtain ⟨result, w, first, last⟩ := h.goOn
  cases result with
  | ok a => exact .inl ⟨a, w, first, last⟩
  | error e =>
    obtain ⟨rfl, rfl⟩ := last
    exact .inr ⟨e, rfl, first⟩

/-- An act whose panic ends with it does not panic. -/
theorem Ends.attempt {p : Progress μ α} {r : Except Panic (Except Panic α)}
    (h : p.attempt.Ends R r w') : ∃ result, r = .ok result ∧ p.Ends R result w' := by
  rw [attempt_eq_goOn] at h
  obtain ⟨result, w, first, rfl, rfl⟩ := h.goOn
  exact ⟨result, rfl, first⟩

end Progress

namespace Act

/-- An act that begins in a world can end with a result in another. -/
structure Ends (R : World μ → World μ → Prop) (act : Act μ α) (w : World μ) (r : Except Panic α)
    (w' : World μ) : Prop where
  /-- It can take a way that ends so. -/
  ends : (act w).Ends R r w'

namespace Ends

variable {act : Act μ α}

theorem pure {a : α} {r : Except Panic α} (h : (pure a : Act μ α).Ends R w r w') :
    r = .ok a ∧ w' = w := ⟨h.ends.1.symm, h.ends.2.symm⟩

theorem throw {p : Panic} {r : Except Panic α} (h : (throw p : Act μ α).Ends R w r w') :
    r = .error p ∧ w' = w := ⟨h.ends.1.symm, h.ends.2.symm⟩

theorem bind {f : α → Act μ β} {r : Except Panic β} (h : (act >>= f).Ends R w r w') :
    (∃ a w₁, act.Ends R w (.ok a) w₁ ∧ (f a).Ends R w₁ r w') ∨
      ∃ e, r = .error e ∧ act.Ends R w (.error e) w' := by
  rcases Progress.Ends.bind h.ends with ⟨a, w₁, first, rest⟩ | ⟨e, panic, first⟩
  · exact .inl ⟨a, w₁, ⟨first⟩, ⟨rest⟩⟩
  · exact .inr ⟨e, panic, ⟨first⟩⟩

/-- What yields a value has gone through all its parts. -/
theorem bind_ok {f : α → Act μ β} {b : β} (h : (act >>= f).Ends R w (.ok b) w') :
    ∃ a w₁, act.Ends R w (.ok a) w₁ ∧ (f a).Ends R w₁ (.ok b) w' := by
  rcases h.bind with rest | ⟨e, panic, -⟩
  · exact rest
  · cases panic

theorem get {f : World μ → Act μ α} {r : Except Panic α}
    (h : (MonadState.get >>= f).Ends R w r w') : (f w).Ends R w r w' := ⟨h.ends⟩

theorem modify {f : World μ → World μ} {rest : PUnit → Act μ α} {r : Except Panic α}
    (h : ((modify f : Act μ PUnit) >>= rest).Ends R w r w') : (rest ⟨⟩).Ends R (f w) r w' :=
  ⟨h.ends⟩

theorem tell {e : Event} {rest : Unit → Act μ α} {r : Except Panic α}
    (h : (Act.tell e >>= rest).Ends R w r w') : (rest ()).Ends R (w.tell e) r w' := ⟨h.ends⟩

theorem attempt {r : Except Panic (Except Panic α)} (h : act.attempt.Ends R w r w') :
    ∃ result, r = .ok result ∧ act.Ends R w result w' := by
  obtain ⟨result, e, ends⟩ := Progress.Ends.attempt h.ends
  exact ⟨result, e, ⟨ends⟩⟩

theorem makeRoom {item : Room.Item} {count : Nat} {rest : Unit → Act μ α} {a : α}
    (h : (Act.makeRoom item count >>= rest).Ends R w (.ok a) w') :
    (rest ()).Ends R w (.ok a) w' := by
  obtain ⟨_, w₁, first, ends⟩ := h.bind_ok
  unfold Act.makeRoom at first
  split at first
  · obtain ⟨-, rfl⟩ := first.pure
    exact ends
  · cases first.throw.1

theorem each_nil {act : β → Act μ α} {results : List α}
    (h : (each [] act).Ends R w (.ok results) w') : results = [] ∧ w' = w := by
  obtain ⟨e, same⟩ := h.pure
  exact ⟨Except.ok.inj e, same⟩

/-- The first item comes first. -/
theorem each_cons {act : β → Act μ α} {b : β} {rest : List β} {results : List α}
    (h : (each (b :: rest) act).Ends R w (.ok results) w') :
    ∃ a w₁ as, (act b).Ends R w (.ok a) w₁ ∧ (each rest act).Ends R w₁ (.ok as) w' ∧
      results = a :: as := by
  rw [Act.each_cons] at h
  obtain ⟨a, w₁, first, h⟩ := h.bind_ok
  obtain ⟨as, w₂, others, h⟩ := h.bind_ok
  obtain ⟨e, rfl⟩ := h.pure
  exact ⟨a, w₁, as, first, others, Except.ok.inj e⟩

end Ends

end Act

/-! ### Acts that never stop -/

theorem Act.get_apply (w : World μ) : (get : Act μ _) w = .done (.ok w) w := rfl

theorem Act.tell_bind (e : Event) (act : Unit → Act μ α) (w : World μ) :
    (Act.tell e >>= act) w = act () (w.tell e) := rfl

theorem Act.modify_bind (f : World μ → World μ) (act : PUnit → Act μ α) (w : World μ) :
    ((modify f : Act μ PUnit) >>= act) w = act ⟨⟩ (f w) := rfl

/-- The value of an act that is over. -/
def Progress.value? : Progress μ α → Option α
  | .done (.ok a) _ => some a
  | _ => none

/-- An act that does not stop takes the way it takes, and the others do nothing meanwhile. -/
theorem Act.Ends.of_done {act : Act μ α} {r : Except Panic α} (run : act w = .done r w') :
    act.Ends (fun _ _ => False) w r w' := by
  refine ⟨?_⟩
  rw [run]
  exact ⟨rfl, rfl⟩

/-- An act that never stops runs to its value. -/
theorem Act.Ends.of_value {act : Act μ α} {a : α} (h : (act w).value? = some a) :
    ∃ w', act.Ends R w (.ok a) w' := by
  cases e : act w with
  | done result w' =>
    rw [e] at h
    cases result with
    | ok b =>
      cases h
      exact ⟨w', ⟨by rw [e]; exact ⟨rfl, rfl⟩⟩⟩
    | error p => cases h
  | _ =>
    rw [e] at h
    cases h

/-! ### Hand-offs -/

/-- The world in which a context has accepted a task. -/
def World.handed (w : World μ) (c : ContextId) (accepted : Context Ticket) : World μ :=
  { (w.tell (.span .handOff)).modifyContext c fun _ => accepted with tickets := w.tickets + 1 }

section HandOff

variable {c : ContextId} {context accepted : Context Ticket} (bound : Option Duration)

theorem enqueue_run (hc : w.contexts[c]? = some context)
    (h : context.accept w.tickets = .ok accepted) :
    enqueue c w = .done (.ok (.ok w.tickets))
      { w.modifyContext c fun _ => accepted with tickets := w.tickets + 1 } := by
  unfold enqueue
  simp only [Act.bind_apply, Act.get_apply, Progress.bind, hc, h]
  rfl

/-- A context that is not there is stopped. -/
theorem handOff_of_absent (work : Act μ α) (hc : w.contexts[c]? = none) :
    handOff c bound work w = .done (.ok (.error .contextStopped)) (w.tell (.span .handOff)) := by
  have there : (w.tell (.span .handOff)).contexts[c]? = none := hc
  unfold handOff
  rw [Act.tell_bind]
  simp only [Act.bind_apply, Act.get_apply, Progress.bind, there]
  rfl

/-- On the thread of a context its work is done at once. -/
theorem handOff_of_here (work : Act μ α) (here : w.thread = .toolkit c)
    (hc : w.contexts[c]? = some context) :
    handOff c bound work w = runInline context.name work (w.tell (.span .handOff)) := by
  have there : (w.tell (.span .handOff)).contexts[c]? = some context := hc
  have own : (w.tell (.span .handOff)).thread = .toolkit c := here
  unfold handOff
  rw [Act.tell_bind]
  simp only [Act.bind_apply, Act.get_apply, Progress.bind, there, own, if_true]

/-- A context that does not accept a task says why, and a full one is told of. -/
theorem handOff_of_refused {refusal : Refusal} (off : w.thread ≠ .toolkit c) (work : Act μ α)
    (hc : w.contexts[c]? = some context) (h : context.accept w.tickets = .error refusal) :
    handOff c bound work w = match refusal with
      | .stopped => .done (.ok (.error .contextStopped)) (w.tell (.span .handOff))
      | .full => .done (.ok (.error .queueFull))
          ((w.tell (.span .handOff)).tell (.queueFull context.name)) := by
  have there : (w.tell (.span .handOff)).contexts[c]? = some context := hc
  have apart : (w.tell (.span .handOff)).thread ≠ .toolkit c := off
  have refused : context.accept (w.tell (.span .handOff)).tickets = .error refusal := h
  unfold handOff
  rw [Act.tell_bind]
  simp only [Act.bind_apply, Act.get_apply, Progress.bind, there, apart, if_false, enqueue, refused]
  cases refusal <;> rfl

/-- Off the thread of a context its work is left to it. -/
theorem handOff_of_accepted (off : w.thread ≠ .toolkit c) (work : Act μ α)
    (hc : w.contexts[c]? = some context) (h : context.accept w.tickets = .ok accepted) :
    handOff c bound work w = runQueued c context.name w.tickets (bound.getD context.timeout) work
      (w.handed c accepted) := by
  have place := enqueue_run (w := w.tell (.span .handOff)) hc h
  have there : (w.tell (.span .handOff)).contexts[c]? = some context := hc
  have apart : (w.tell (.span .handOff)).thread ≠ .toolkit c := off
  unfold handOff
  rw [Act.tell_bind]
  simp only [Act.bind_apply, Act.get_apply, Progress.bind, there, apart, if_false, place]
  rfl

section Queued

variable {k : Ticket} {name : String} {wait : Duration}

/-- The caller of accepted work waits, if the clock can tell until when. -/
theorem runQueued_of_fits (fits : wait.FitsClock w.clock) (work : Act μ α) :
    runQueued c name k wait work w = (do
      match ← Act.call c k wait work with
      | some result => pure (ofWork result)
      | none => giveUp c name wait : Act μ (Except Unavailable α)) w := by
  unfold runQueued
  rw [Act.bind_apply, Act.get_apply, Progress.bind]
  exact congrFun (if_pos fits) w

/-- Otherwise it panics, and leaves the work where it is. -/
theorem runQueued_of_late (late : ¬wait.FitsClock w.clock) (work : Act μ α) :
    runQueued c name k wait work w = (do
      Act.leave c k do
        let _ ← work
      throw deadlineOverflow : Act μ (Except Unavailable α)) w := by
  unfold runQueued
  rw [Act.bind_apply, Act.get_apply, Progress.bind]
  exact congrFun (if_neg late) w

end Queued

/-- The clock can tell until when a context is to be waited for. -/
def World.InTime (w : World μ) (c : ContextId) : Prop :=
  ∀ {context : Context Ticket}, w.contexts[c]? = some context → context.timeout.FitsClock w.clock

/-- The caller of a task that is accepted waits for the result, at most for the bound. -/
theorem handOff_calls (off : w.thread ≠ .toolkit c) (work : Act μ α)
    (hc : w.contexts[c]? = some context) (h : context.accept w.tickets = .ok accepted)
    (fits : (bound.getD context.timeout).FitsClock w.clock) :
    ∃ next, handOff c bound work w =
        .calling c w.tickets (bound.getD context.timeout) work (w.handed c accepted) next ∧
      (∀ result later, next (some result) later = .done (.ok (ofWork result)) later) ∧
      ∀ later, ∃ e, next none later =
        .done (.ok (.error (.timedOut (bound.getD context.timeout)))) (later.tell e) := by
  have clock : (w.handed c accepted).clock = w.clock := rfl
  rw [handOff_of_accepted bound off work hc h, runQueued_of_fits (clock ▸ fits)]
  exact ⟨_, rfl, fun _ _ => rfl, fun later => ⟨_, rfl⟩⟩

/-- If the clock cannot tell until when the caller would have to wait, the caller panics, and the task
stays. -/
theorem handOff_overruns (off : w.thread ≠ .toolkit c) (work : Act μ α)
    (hc : w.contexts[c]? = some context) (h : context.accept w.tickets = .ok accepted)
    (late : ¬(bound.getD context.timeout).FitsClock w.clock) :
    handOff c bound work w =
      .leaving c w.tickets (work >>= fun _ => pure () : Act μ Unit) (w.handed c accepted)
        fun later => .done (.error deadlineOverflow) later := by
  have clock : (w.handed c accepted).clock = w.clock := rfl
  rw [handOff_of_accepted bound off work hc h, runQueued_of_late (clock ▸ late)]
  rfl

end HandOff

/-! ### Readings -/

namespace Peer

variable {p : PeerId} {t : TableId} {c : ContextId}
  {outcome : Except Unavailable (Option (Except Unavailable α))}

/-- What a peer makes of the outcome of a hand-off: when the table was found gone it remembers that. -/
def settle (p : PeerId) (outcome : Except Unavailable (Option (Except Unavailable α))) :
    Act μ (Except Unavailable α) :=
  match flatten outcome with
  | .error .stalePeer => do
    invalidate p
    pure (.error .stalePeer)
  | result => pure result

theorem settle_of_stale (h : flatten outcome = .error .stalePeer) :
    (settle p outcome : Act μ _) = (do
      invalidate p
      pure (.error .stalePeer)) := by
  unfold settle
  rw [h]

theorem settle_of_ne (h : flatten outcome ≠ .error .stalePeer) :
    (settle p outcome : Act μ _) = pure (flatten outcome) := by
  unfold settle
  split
  · contradiction
  · rfl

/-- A peer that does not know that its table is gone hands the reading over. -/
theorem query_of_unlatched (hp : w.peers[p]? = some ⟨t, c, false⟩)
    (read : Inquiry (Except Unavailable α)) :
    query p read w = (handOff c none (consult t (Reading.ofLive read)) >>= settle p) w := by
  unfold query
  simp only [Act.bind_apply, Act.get_apply, Progress.bind, hp, Bool.false_eq_true, if_false]
  rfl

/-- Who reads through it panics when the context has the task, if the clock cannot tell until when the
context is to be waited for. -/
theorem query_overruns {context accepted : Context Ticket} (hp : w.peers[p]? = some ⟨t, c, false⟩)
    (off : w.thread ≠ .toolkit c) (hc : w.contexts[c]? = some context)
    (ok : context.accept w.tickets = .ok accepted) (late : ¬context.timeout.FitsClock w.clock)
    (read : Inquiry (Except Unavailable α)) :
    ∃ task, query p read w = .leaving c w.tickets task (w.handed c accepted) fun later =>
      .done (.error deadlineOverflow) later := by
  have overruns := handOff_overruns none off (consult t (Reading.ofLive read)) hc ok late
  exact ⟨_, by rw [query_of_unlatched hp, Act.bind_apply, overruns]; rfl⟩

end Peer

end TableAccess
