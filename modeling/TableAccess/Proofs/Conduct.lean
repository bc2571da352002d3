import TableAccess.Proofs.Runs

/-!
# Conduct

A thread goes on in the world it finds and works until it has to stop. What it may count on in the
worlds it finds and what it makes of them until it stops is its conduct. A task that it leaves to a
context keeps to the same conduct, and so does a thread that it starts.

## The model

* `Conduct` — what is found, and what is left.
* `Progress.Keeps` — an act that has come so far keeps to a conduct, whatever it finds when it goes
  on and whatever comes of the tasks it has called.
* `Act.Keeps` — an act does, and something holds of its value, or of its panic.
* `Keeps.bind`, `Keeps.each`, … — one rule for each way to put acts together.
* `KeepsFrom.handOff` — the rule for work that is handed over.
-/

namespace TableAccess

variable {μ α β : Type}

/-- What a thread may count on and what it sees to. -/
structure Conduct (μ : Type) where
  /-- So is the world that a thread finds when it goes on. -/
  Finds : World μ → Prop
  /-- From a world it found, a thread may have come to another. -/
  Leaves : World μ → World μ → Prop

/-- A context accepts a task under the next ticket. -/
structure World.Accepts (c : ContextId) (k : Ticket) (w w' : World μ) : Prop where
  /-- The context was there and had room. -/
  accepts : ∃ context context', w.contexts[c]? = some context ∧
    context.accept k = .ok context' ∧ w'.contexts = w.contexts.modify c fun _ => context'
  /-- The ticket was the next one. -/
  next : k = w.tickets
  /-- It is given out. -/
  given : w'.tickets = k + 1
  /-- Nothing else was done. -/
  rest : w' = { w with contexts := w'.contexts, tickets := w'.tickets }

/-- The same thread goes on. -/
theorem World.Accepts.thread {c : ContextId} {k : Ticket} {w w' : World μ} (h : w.Accepts c k w') :
    w'.thread = w.thread := by rw [h.rest]

/-- No thread was started. -/
theorem World.Accepts.clients {c : ContextId} {k : Ticket} {w w' : World μ} (h : w.Accepts c k w') :
    w'.clients = w.clients := by rw [h.rest]

/-- No time has passed. -/
theorem World.Accepts.clock {c : ContextId} {k : Ticket} {w w' : World μ} (h : w.Accepts c k w') :
    w'.clock = w.clock := by rw [h.rest]

/-- What is told only of work that has panicked. -/
inductive Event.OfPanic : Event → Prop where
  /-- It was done at once. -/
  | inline (context : String) : OfPanic (.inlineTaskPanicked context)
  /-- It was to read a table. -/
  | reading (role : Role) (node : NodeId) (question : String) :
    OfPanic (.queryUnavailable role node question .handOffPanicked)

namespace Conduct

/-- Something holds in every world that is found. -/
def finding (I : World μ → Prop) : Conduct μ := ⟨I, fun _ _ => True⟩

/-- It is kept until the thread stops. -/
def keeping (I : World μ → Prop) : Conduct μ := ⟨I, fun _ => I⟩

variable (C : Conduct μ)

/-- A thread that went on in `w₀` has come to `w`. -/
structure Along (w₀ w : World μ) : Prop where
  /-- It is the same thread. -/
  thread : w.thread = w₀.thread
  /-- It has come there as it may. -/
  leaves : C.Leaves w₀ w

/-- It has come to hand over a task that a context has just accepted. -/
def Hands (c : ContextId) (k : Ticket) (w₀ w : World μ) : Prop :=
  ∃ w₁, C.Along w₀ w₁ ∧ w₁.Accepts c k w

/-- It has come to start another thread. -/
def Starts (thread : Thread) (w₀ w : World μ) : Prop :=
  ∃ w₁, C.Along w₀ w₁ ∧ thread = .client w₁.clients ∧ w = { w₁ with clients := w₁.clients + 1 }

/-- Who goes on may stop again at once, and tell something; but nothing is told of a panic unless `T`
holds of some, and that a peer was latched is left to who latches it. -/
structure Plain (T : Panic → Prop := fun _ => True) : Prop where
  /-- The world that was found may be left as it is. -/
  found : ∀ {w : World μ}, C.Finds w → C.Leaves w w
  /-- Something is told. -/
  tell : ∀ {w₀ w : World μ} {e : Event}, (e.OfPanic → ∃ p, T p) → e ≠ .peerInvalidated →
    C.Along w₀ w → C.Leaves w₀ (w.tell e)

variable {C} {T : Panic → Prop} {w₀ w : World μ}

theorem Plain.along (plain : C.Plain T) (h : C.Finds w) : C.Along w w := ⟨rfl, plain.found h⟩

theorem Plain.told (plain : C.Plain T) (h : C.Along w₀ w) (e : Event)
    (panics : e.OfPanic → ∃ p, T p := by nofun) (other : e ≠ .peerInvalidated := by nofun) :
    C.Along w₀ (w.tell e) :=
  ⟨h.thread, plain.tell panics other h⟩

/-- A context that has room for a task takes it. -/
theorem Along.hands {c : ContextId} {context accepted : Context Ticket} (h : C.Along w₀ w)
    (plain : C.Plain T) (hc : w.contexts[c]? = some context)
    (ok : context.accept w.tickets = .ok accepted) :
    C.Hands c w.tickets w₀ (w.handed c accepted) :=
  ⟨w.tell (.span .handOff), plain.told h _, ⟨context, accepted, hc, ok, rfl⟩, rfl, rfl, rfl⟩

end Conduct

/-- A panic of which something holds, or a value of which something does. -/
def Allowed (P : Panic → Prop) (Q : α → Prop) : Except Panic α → Prop
  | .ok a => Q a
  | .error p => P p

namespace Progress

/-- An act that went on in `w₀` and has come so far keeps to a conduct, and `post` holds of its
result in the world it ends in. A task that it has called does too, and what the task comes to is the answer. -/
def Keeps {α : Type} (C : Conduct μ) (post : World μ → Except Panic α → Prop) (w₀ : World μ) :
    Progress μ α → Prop
  | .done result w => C.Along w₀ w ∧ post w result
  | .awaiting _ _ w next => C.Along w₀ w ∧
    ∀ b later, later.thread = w₀.thread → C.Finds later → (next b later).Keeps C post later
  | .leaving c k task w next => C.Hands c k w₀ w ∧
    (∀ later, later.thread = .toolkit c → C.Finds later →
      (task later).Keeps C (fun _ _ => True) later) ∧
    ∀ later, later.thread = w₀.thread → C.Finds later → (next later).Keeps C post later
  | .calling c k _ task w next => C.Hands c k w₀ w ∧
    (∀ later, later.thread = .toolkit c → C.Finds later →
      (task later).Keeps C (fun _ result => ∀ later', later'.thread = w₀.thread → C.Finds later' →
        (next (some result) later').Keeps C post later') later) ∧
    ∀ later, later.thread = w₀.thread → C.Finds later → (next none later).Keeps C post later
  | .starting thread task w next => C.Starts thread w₀ w ∧
    (∀ later, later.thread = thread → C.Finds later →
      (task later).Keeps C (fun _ _ => True) later) ∧
    ∀ later, later.thread = w₀.thread → C.Finds later → (next later).Keeps C post later

variable {C : Conduct μ} {post post' : World μ → Except Panic α → Prop} {w₀ w : World μ}

theorem Keeps.mono {p : Progress μ α} (h : p.Keeps C post w₀)
    (weaker : ∀ w result, post w result → post' w result) : p.Keeps C post' w₀ := by
  induction p generalizing w₀ with
  | done result w => exact ⟨h.1, weaker w result h.2⟩
  | awaiting holds bound w next ih =>
    exact ⟨h.1, fun b later thread found => ih b later (h.2 b later thread found) weaker⟩
  | leaving c k task w next _ ih =>
    exact ⟨h.1, h.2.1, fun later thread found => ih later (h.2.2 later thread found) weaker⟩
  | calling c k bound task w next ihTask ih =>
    refine ⟨h.1, fun later thread found => ?_, fun later thread found =>
      ih none later (h.2.2 later thread found) weaker⟩
    exact ihTask later (h.2.1 later thread found) fun _ result answered later' thread' found' =>
      ih (some result) later' (answered later' thread' found') weaker
  | starting thread task w next _ ih =>
    exact ⟨h.1, h.2.1, fun later thread found => ih later (h.2.2 later thread found) weaker⟩

/-- What keeps to a conduct keeps to one that finds no more and may leave more. -/
theorem Keeps.weaken {C' : Conduct μ} {p : Progress μ α} (h : p.Keeps C post w₀)
    (finds : ∀ {w : World μ}, C'.Finds w → C.Finds w)
    (leaves : ∀ {w₀ w : World μ}, C.Leaves w₀ w → C'.Leaves w₀ w) :
    p.Keeps C' (fun w result => (∃ w₀, C.Along w₀ w) ∧ post w result) w₀ := by
  have along : ∀ {w₀ w : World μ}, C.Along w₀ w → C'.Along w₀ w := fun h =>
    ⟨h.thread, leaves h.leaves⟩
  induction p generalizing w₀ with
  | done result w => exact ⟨along h.1, ⟨w₀, h.1⟩, h.2⟩
  | awaiting holds bound w next ih =>
    exact ⟨along h.1, fun b later here found => ih b later (h.2 b later here (finds found))⟩
  | leaving c k task w next ihTask ih =>
    obtain ⟨⟨w₁, from_, accepts⟩, does, goesOn⟩ := h
    refine ⟨⟨w₁, along from_, accepts⟩, fun later here found => ?_,
      fun later here found => ih later (goesOn later here (finds found))⟩
    exact (ihTask later (does later here (finds found))).mono fun _ _ _ => trivial
  | calling c k bound task w next ihTask ih =>
    obtain ⟨⟨w₁, from_, accepts⟩, does, goesOn⟩ := h
    refine ⟨⟨w₁, along from_, accepts⟩, fun later here found => ?_,
      fun later here found => ih none later (goesOn later here (finds found))⟩
    exact (ihTask later (does later here (finds found))).mono
      fun _ result told later' here' found' =>
        ih (some result) later' (told.2 later' here' (finds found'))
  | starting thread task w next ihTask ih =>
    obtain ⟨⟨w₁, from_, new, e⟩, does, goesOn⟩ := h
    refine ⟨⟨w₁, along from_, new, e⟩, fun later here found => ?_,
      fun later here found => ih later (goesOn later here (finds found))⟩
    exact (ihTask later (does later here (finds found))).mono fun _ _ _ => trivial

/-- What goes on with the result of an act does so where the act has come to. -/
theorem Keeps.goOn {p : Progress μ α} {k : Except Panic α → Act μ β}
    {post : World μ → Except Panic α → Prop} {post' : World μ → Except Panic β → Prop}
    (h : p.Keeps C post w₀) (rest : ∀ w₀ w result, C.Along w₀ w → post w result →
      (k result w).Keeps C post' w₀) : (p.goOn k).Keeps C post' w₀ := by
  induction p generalizing w₀ with
  | done result w => exact rest w₀ w result h.1 h.2
  | awaiting holds bound w next ih =>
    exact ⟨h.1, fun b later thread found => ih b later (h.2 b later thread found) rest⟩
  | leaving c ticket task w next _ ih =>
    exact ⟨h.1, h.2.1, fun later thread found => ih later (h.2.2 later thread found) rest⟩
  | calling c ticket bound task w next _ ih =>
    refine ⟨h.1, fun later thread found => ?_, fun later thread found =>
      ih none later (h.2.2 later thread found) rest⟩
    exact (h.2.1 later thread found).mono fun _ result answered later' thread' found' =>
      ih (some result) later' (answered later' thread' found') rest
  | starting thread task w next _ ih =>
    exact ⟨h.1, h.2.1, fun later thread found => ih later (h.2.2 later thread found) rest⟩

/-- One act after another. The second one goes on where the first one has come to. -/
theorem Keeps.bind {p : Progress μ α} {f : α → Act μ β} {post : World μ → Except Panic α → Prop}
    {post' : World μ → Except Panic β → Prop} (h : p.Keeps C post w₀)
    (ok : ∀ w₀ w a, C.Along w₀ w → post w (.ok a) → (f a w).Keeps C post' w₀)
    (error : ∀ w e, post w (.error e) → post' w (.error e)) : (p.bind f).Keeps C post' w₀ := by
  rw [bind_eq_goOn]
  refine h.goOn fun w₀ w result along holds => ?_
  cases result with
  | ok a => exact ok w₀ w a along holds
  | error e => exact ⟨along, error w e holds⟩

/-- An act whose panic ends with it. -/
theorem Keeps.attempt {p : Progress μ α} {post : World μ → Except Panic (Except Panic α) → Prop}
    (h : p.Keeps C (fun w result => post w (.ok result)) w₀) : p.attempt.Keeps C post w₀ := by
  rw [attempt_eq_goOn]
  exact h.goOn fun _ _ _ along holds => ⟨along, holds⟩

end Progress

namespace Act

/-- An act that went on in `w₀` and has come to `w` keeps to a conduct; `P` holds of its panic, or
`Q` of its value. -/
structure KeepsFrom (C : Conduct μ) (act : Act μ α) (w₀ w : World μ) (P : Panic → Prop)
    (Q : α → Prop) : Prop where
  /-- From where the thread has come to. -/
  progress : (act w).Keeps C (fun _ => Allowed P Q) w₀

/-- An act keeps to a conduct wherever the thread has come to; `P` holds of its panic, or `Q` of its
value. -/
structure Keeps (C : Conduct μ) (act : Act μ α) (P : Panic → Prop) (Q : α → Prop) : Prop where
  /-- Wherever the thread has come to. -/
  keeps : ∀ {w₀ w : World μ}, C.Along w₀ w → act.KeepsFrom C w₀ w P Q

variable {C : Conduct μ} {P T : Panic → Prop} {Q R : α → Prop} {act : Act μ α} {w₀ w : World μ}

namespace KeepsFrom

theorem pure {a : α} (along : C.Along w₀ w) (h : Q a) : (pure a : Act μ α).KeepsFrom C w₀ w P Q :=
  ⟨along, h⟩

theorem throw {p : Panic} (along : C.Along w₀ w) (h : P p) :
    (throw p : Act μ α).KeepsFrom C w₀ w P Q := ⟨along, h⟩

theorem mono (h : act.KeepsFrom C w₀ w P Q) (weaker : ∀ a, Q a → R a) : act.KeepsFrom C w₀ w P R := by
  refine ⟨h.progress.mono fun _ result allowed => ?_⟩
  cases result with
  | ok a => exact weaker a allowed
  | error p => exact allowed

/-- It keeps to any conduct that finds no more and may leave more. -/
theorem weaken {C' : Conduct μ} (h : act.KeepsFrom C w₀ w P Q)
    (finds : ∀ {w : World μ}, C'.Finds w → C.Finds w)
    (leaves : ∀ {w₀ w : World μ}, C.Leaves w₀ w → C'.Leaves w₀ w) : act.KeepsFrom C' w₀ w P Q :=
  ⟨(h.progress.weaken finds leaves).mono fun _ _ kept => kept.2⟩

theorem bind {f : α → Act μ β} {R : β → Prop} (h : act.KeepsFrom C w₀ w P Q)
    (rest : ∀ w₀ w a, C.Along w₀ w → Q a → (f a).KeepsFrom C w₀ w P R) :
    (act >>= f).KeepsFrom C w₀ w P R :=
  ⟨Progress.Keeps.bind h.progress (fun w₀ w a along value => (rest w₀ w a along value).progress)
    fun _ _ panics => panics⟩

/-- An act that comes to what another one does. -/
theorem of_eq {act' : Act μ α} {w' : World μ} (h : act'.KeepsFrom C w₀ w' P Q)
    (same : act w = act' w') : act.KeepsFrom C w₀ w P Q :=
  ⟨same ▸ h.progress⟩

/-- An act that ends without having stopped. -/
theorem of_done {result : Except Panic α} {w' : World μ} (run : act w = .done result w')
    (along : C.Along w₀ w') (h : Allowed P Q result) : act.KeepsFrom C w₀ w P Q :=
  ⟨run ▸ ⟨along, h⟩⟩

/-- A panic that ends with the act. -/
theorem attempt {Q : Except Panic α → Prop} (h : act.KeepsFrom C w₀ w T R)
    (holds : ∀ result, Allowed T R result → Q result) : act.attempt.KeepsFrom C w₀ w P Q :=
  ⟨Progress.Keeps.attempt (h.progress.mono fun _ => holds)⟩

/-- Looking at the world changes nothing. -/
theorem get {f : World μ → Act μ α} (h : (f w).KeepsFrom C w₀ w P Q) :
    (MonadState.get >>= f).KeepsFrom C w₀ w P Q := ⟨h.progress⟩

theorem modify {f : World μ → World μ} {rest : PUnit → Act μ α}
    (h : (rest ⟨⟩).KeepsFrom C w₀ (f w) P Q) :
    ((modify f : Act μ PUnit) >>= rest).KeepsFrom C w₀ w P Q := ⟨h.progress⟩

theorem tell {e : Event} {rest : Unit → Act μ α} (h : (rest ()).KeepsFrom C w₀ (w.tell e) P Q) :
    (Act.tell e >>= rest).KeepsFrom C w₀ w P Q := ⟨h.progress⟩

/-- The caller of a task goes on with what the task comes to, or with nothing. -/
theorem call {c : ContextId} {k : Ticket} {bound : Duration} {task : Act μ β} {R : β → Prop}
    {Q : Option (Except Panic β) → Prop} (hands : C.Hands c k w₀ w) (plain : C.Plain T)
    (does : ∀ {w}, C.Finds w → w.thread = .toolkit c → task.KeepsFrom C w w T R)
    (unanswered : Q none) (answered : ∀ result, Allowed T R result → Q (some result)) :
    (Act.call c k bound task).KeepsFrom C w₀ w P Q := by
  refine ⟨hands, fun later here finds => ?_, fun later _ finds =>
    ⟨plain.along finds, unanswered⟩⟩
  exact (does finds here).progress.mono fun _ result allowed =>
    fun later' _ finds' => ⟨plain.along finds', answered result allowed⟩

/-- Who leaves a task to a context goes on at once. -/
theorem leave {c : ContextId} {k : Ticket} {task : Act μ Unit} {R Q : Unit → Prop}
    (hands : C.Hands c k w₀ w) (plain : C.Plain T)
    (does : ∀ {w}, C.Finds w → w.thread = .toolkit c → task.KeepsFrom C w w T R)
    (goesOn : Q ()) : (Act.leave c k task).KeepsFrom C w₀ w P Q := by
  refine ⟨hands, fun later here finds => ?_, fun later _ finds => ⟨plain.along finds, goesOn⟩⟩
  exact (does finds here).progress.mono fun _ _ _ => trivial

end KeepsFrom

namespace Keeps

theorem pure {a : α} (h : Q a) : (pure a : Act μ α).Keeps C P Q := ⟨fun along => .pure along h⟩

theorem throw {p : Panic} (h : P p) : (throw p : Act μ α).Keeps C P Q :=
  ⟨fun along => .throw along h⟩

theorem mono (h : act.Keeps C P Q) (weaker : ∀ a, Q a → R a) : act.Keeps C P R :=
  ⟨fun along => (h.keeps along).mono weaker⟩

/-- An act keeps to the conduct, and nothing is said of its value. -/
theorem forget (h : act.Keeps C P Q) : act.Keeps C P fun _ => True := h.mono fun _ _ => trivial

theorem bind {f : α → Act μ β} {R : β → Prop} (h : act.Keeps C P Q)
    (rest : ∀ a, Q a → (f a).Keeps C P R) : (act >>= f).Keeps C P R :=
  ⟨fun along => .bind (h.keeps along) fun _ _ a along' holds => (rest a holds).keeps along'⟩

theorem map {f : α → β} {R : β → Prop} (h : act.Keeps C P Q) (holds : ∀ a, Q a → R (f a)) :
    (f <$> act).Keeps C P R := by
  rw [map_eq_pure_bind]
  exact h.bind fun a value => .pure (holds a value)

/-- An act that looks at the world first. -/
theorem get {f : World μ → Act μ α}
    (h : ∀ {w₀ w}, C.Along w₀ w → (f w).KeepsFrom C w₀ w P Q) :
    (MonadState.get >>= f).Keeps C P Q :=
  ⟨fun along => .get (h along)⟩

theorem each {R : β → Prop} {items : List α} {act : α → Act μ β}
    (h : ∀ a ∈ items, (act a).Keeps C P R) :
    (Act.each items act).Keeps C P fun results => ∀ b ∈ results, R b := by
  induction items with
  | nil => exact pure fun b hb => by cases hb
  | cons a rest ih =>
    rw [each_cons]
    refine (h a List.mem_cons_self).bind fun b first => ?_
    refine (ih fun a' mem => h a' (List.mem_cons_of_mem a mem)).bind fun bs others => ?_
    refine pure fun b' mem => ?_
    rcases List.mem_cons.1 mem with rfl | mem
    · exact first
    · exact others b' mem

/-- There is a result for each item. -/
theorem each_length {items : List α} {act : α → Act μ β} (h : ∀ a ∈ items, (act a).Keeps C P fun _ => True) :
    (Act.each items act).Keeps C P fun results => results.length = items.length := by
  induction items with
  | nil => exact pure rfl
  | cons a rest ih =>
    rw [each_cons]
    refine (h a List.mem_cons_self).bind fun b _ => ?_
    refine (ih fun a' mem => h a' (List.mem_cons_of_mem a mem)).bind fun bs length => ?_
    exact pure (congrArg Nat.succ length)

theorem makeRoom {item : Room.Item} {count : Nat} (h : ¬Room.Fits item count → P Room.overflow) :
    (Act.makeRoom item count).Keeps C P fun _ => True := by
  unfold Act.makeRoom
  split
  · exact pure trivial
  · exact throw (h ‹_›)

end Keeps

/-! ### Hand-offs -/

/-- What a hand-off comes to: something holds of the value of its work, or of the panic it has ended
with, or the context did not answer. -/
def Answered (T : Panic → Prop) (Q : α → Prop) : Except Unavailable α → Prop
  | .ok a => Q a
  | .error u => u.isContextFailure = true ∧ (u = .handOffPanicked → ∃ p, T p)

theorem answered_ofWork {result : Except Panic α} (h : Allowed T Q result) :
    Answered T Q (ofWork result) := by
  cases result with
  | ok a => exact h
  | error p => exact ⟨rfl, fun _ => ⟨p, h⟩⟩

/-- Work done at once on the thread of its context. -/
theorem KeepsFrom.inline {name : String} (plain : C.Plain T) (h : act.KeepsFrom C w₀ w T Q) :
    (runInline name act).KeepsFrom C w₀ w P (Answered T Q) := by
  refine .bind (.attempt h fun _ allowed => allowed) fun w₀ w result along allowed => ?_
  cases result with
  | ok a => exact .pure along allowed
  | error p =>
    exact .tell (.pure (plain.told along _ fun _ => ⟨p, allowed⟩) (answered_ofWork allowed))

/-- Work that a context has accepted is done on its thread. -/
theorem KeepsFrom.accepted {c : ContextId} {k : Ticket} {name : String} {bound : Duration}
    (plain : C.Plain T)
    (does : ∀ {w}, C.Finds w → w.thread = .toolkit c → act.KeepsFrom C w w T Q)
    (overruns : ¬bound.FitsClock w.clock → P deadlineOverflow) (hands : C.Hands c k w₀ w) :
    (runQueued c name k bound act).KeepsFrom C w₀ w P (Answered T Q) := by
  by_cases fits : bound.FitsClock w.clock
  · refine .of_eq ?_ (runQueued_of_fits fits act)
    refine .bind (.call (Q := fun answer => ∀ result, answer = some result → Allowed T Q result)
      hands plain does (fun _ e => by cases e) fun result allowed _ e => ?_)
      fun w₀ w answer along told => ?_
    · cases e
      exact allowed
    · cases answer with
      | some result => exact .pure along (answered_ofWork (told result rfl))
      | none => exact .get (.tell (.pure (plain.told along _) ⟨rfl, nofun⟩))
  · refine .of_eq ?_ (runQueued_of_late fits act)
    refine .bind (.leave (T := T) (Q := fun _ => True) (R := fun _ => True) hands plain ?_ trivial)
      fun _ _ _ along _ => .throw along (overruns fits)
    exact fun finds here => .bind (does finds here) fun _ _ _ along _ => .pure along trivial

/-- A hand-off keeps to a conduct if its work does, where it is done at once and where the thread of
the context finds it. -/
theorem KeepsFrom.handOff {c : ContextId} {bound : Option Duration} (plain : C.Plain T)
    (along : C.Along w₀ w)
    (inline : w.thread = .toolkit c → act.KeepsFrom C w₀ (w.tell (.span .handOff)) T Q)
    (does : ∀ {w}, C.Finds w → w.thread = .toolkit c → act.KeepsFrom C w w T Q)
    (overruns : ∀ {context}, w.contexts[c]? = some context →
      ¬(bound.getD context.timeout).FitsClock w.clock → P deadlineOverflow) :
    (handOff c bound act).KeepsFrom C w₀ w P (Answered T Q) := by
  have told := plain.told along (.span .handOff)
  cases hc : w.contexts[c]? with
  | none => exact .of_done (handOff_of_absent bound act hc) told ⟨rfl, nofun⟩
  | some context =>
    by_cases here : w.thread = .toolkit c
    · exact .of_eq (.inline plain (inline here)) (handOff_of_here bound act here hc)
    · cases ok : context.accept w.tickets with
      | error refusal =>
        have refused := handOff_of_refused bound here act hc ok
        cases refusal with
        | stopped => exact .of_done refused told ⟨rfl, nofun⟩
        | full => exact .of_done refused (plain.told told _) ⟨rfl, nofun⟩
      | ok accepted =>
        refine .of_eq ?_ (handOff_of_accepted bound here act hc ok)
        exact .accepted (w := w.handed c accepted) plain does (overruns hc) (along.hands plain hc ok)

/-- So is work handed over by whoever keeps to a conduct, if the work does so wherever it is done. -/
theorem Keeps.handOff {c : ContextId} {bound : Option Duration} (plain : C.Plain T)
    (h : act.Keeps C T Q) (late : P deadlineOverflow) :
    (handOff c bound act).Keeps C P (Answered T Q) :=
  ⟨fun along => .handOff plain along (fun _ => h.keeps (plain.told along _))
    (fun found _ => h.keeps (plain.along found)) fun _ _ => late⟩

end Act

end TableAccess
