import TableAccess.Proofs.Nodes
import TableAccess.Proofs.Runs

/-!
# Acts lead through moments

An act that is under way changes the world by deeds, and whenever it has stopped the others go on
with deeds of theirs. It leads from a moment, to the end it comes to, when all it does is made of
deeds, whatever the others do meanwhile and whatever it is answered by those it has called.

## The model

* `Progress.Leads` — an act that has come so far is made of deeds, and something holds when it ends.
* `Act.Meets` — the same of an act that begins at a moment; what holds is about its value.
* `Meets.bind`, `Meets.each`, … — one rule for each way to put acts together.
-/

namespace TableAccess

variable {μ α β : Type} {m m' : Moment μ} {θ : Thread}

namespace Progress

/-- An act on a thread that has come so far is made of deeds from a moment on, and `post` holds at
the moment it ends, of its result. While it has stopped any deeds are done. A task that it has left
to a context is made of deeds too, and if it is called its result is the answer. -/
def Leads {α : Type} (post : Moment μ → Except Panic α → Prop) (θ : Thread) (m : Moment μ) :
    Progress μ α → Prop
  | .done result w => ∃ m', m.Goes m' ∧ m'.world = w ∧ w.thread = θ ∧ post m' result
  | .awaiting _ _ w next => ∃ m', m.Goes m' ∧ m'.world = w ∧
    ∀ b later, m'.Goes later → later.world.thread = θ → (next b later.world).Leads post θ later
  | .leaving c ticket task w next => ∃ m', m.Goes m' ∧ m'.world = w ∧
    (∀ later, m'.Goes later → later.world.task? = some (c, ticket) →
      (task later.world).Leads (fun _ _ => True) (.toolkit c) later) ∧
    ∀ later, m'.Goes later → later.world.thread = θ → (next later.world).Leads post θ later
  | .calling c ticket _ task w next => ∃ m', m.Goes m' ∧ m'.world = w ∧
    (∀ later, m'.Goes later → later.world.task? = some (c, ticket) →
      (task later.world).Leads (fun ended result => ∀ later, ended.Goes later →
        later.world.thread = θ → (next (some result) later.world).Leads post θ later)
        (.toolkit c) later) ∧
    ∀ later, m'.Goes later → later.world.thread = θ → (next none later.world).Leads post θ later
  | .starting thread task w next => ∃ m', m.Goes m' ∧ m'.world = w ∧
    (∀ later, m'.Goes later → later.world.thread = thread →
      (task later.world).Leads (fun _ _ => True) thread later) ∧
    ∀ later, m'.Goes later → later.world.thread = θ → (next later.world).Leads post θ later

variable {post post' : Moment μ → Except Panic α → Prop}

/-- An act may begin with deeds of its own. -/
theorem Leads.before {p : Progress μ α} (earlier : m.Goes m') (h : p.Leads post θ m') :
    p.Leads post θ m := by
  cases p with
  | done | awaiting | leaving | calling | starting =>
    obtain ⟨m'', goes, rest⟩ := h
    exact ⟨m'', earlier.trans goes, rest⟩

/-- What holds at the end may be weakened, in view of what came before. -/
theorem Leads.mono {p : Progress μ α} (h : p.Leads post θ m)
    (weaker : ∀ m' result, m.Goes m' → m'.world.thread = θ → post m' result → post' m' result) :
    p.Leads post' θ m := by
  induction p generalizing m θ with
  | done result w =>
    obtain ⟨m', goes, e, thread, holds⟩ := h
    exact ⟨m', goes, e, thread, weaker m' result goes (e ▸ thread) holds⟩
  | awaiting holds bound w next ih =>
    obtain ⟨m', goes, e, goesOn⟩ := h
    exact ⟨m', goes, e, fun b later after thread => ih b later.world (goesOn b later after thread)
      fun m'' result goes' => weaker m'' result (goes.trans (after.trans goes'))⟩
  | leaving c ticket task w next _ ih =>
    obtain ⟨m', goes, e, left, goesOn⟩ := h
    exact ⟨m', goes, e, left, fun later after thread => ih later.world (goesOn later after thread)
      fun m'' result goes' => weaker m'' result (goes.trans (after.trans goes'))⟩
  | calling c ticket bound task w next ihTask ih =>
    obtain ⟨m', goes, e, called, goesOn⟩ := h
    refine ⟨m', goes, e, ?_, ?_⟩
    · intro later after current
      refine ihTask later.world (called later after current)
        fun ended result goes' _ answered later' after' thread => ?_
      exact ih (some result) later'.world (answered later' after' thread) fun m'' result goes'' =>
        weaker m'' result (goes.trans (after.trans (goes'.trans (after'.trans goes''))))
    · intro later after thread
      exact ih none later.world (goesOn later after thread) fun m'' result goes' =>
        weaker m'' result (goes.trans (after.trans goes'))
  | starting thread task w next _ ih =>
    obtain ⟨m', goes, e, started, goesOn⟩ := h
    exact ⟨m', goes, e, started, fun later after thread => ih later.world (goesOn later after thread)
      fun m'' result goes' => weaker m'' result (goes.trans (after.trans goes'))⟩

/-- What goes on with the result of an act begins at the moment at which the act ends. -/
theorem Leads.goOn {p : Progress μ α} {k : Except Panic α → Act μ β}
    {post : Moment μ → Except Panic β → Prop}
    (h : p.Leads (fun m' result => m'.world.thread = θ → (k result m'.world).Leads post θ m') θ m) :
    (p.goOn k).Leads post θ m := by
  induction p generalizing m with
  | done result w =>
    obtain ⟨m', goes, rfl, thread, rest⟩ := h
    exact (rest thread).before goes
  | awaiting holds bound w next ih =>
    obtain ⟨m', goes, e, goesOn⟩ := h
    exact ⟨m', goes, e, fun b later after thread => ih b later.world (goesOn b later after thread)⟩
  | leaving c ticket task w next _ ih =>
    obtain ⟨m', goes, e, left, goesOn⟩ := h
    exact ⟨m', goes, e, left, fun later after thread => ih later.world (goesOn later after thread)⟩
  | calling c ticket bound task w next _ ih =>
    obtain ⟨m', goes, e, called, goesOn⟩ := h
    refine ⟨m', goes, e, fun later after current => ?_, fun later after thread =>
      ih none later.world (goesOn later after thread)⟩
    exact (called later after current).mono fun ended result _ _ answered later' after' thread =>
      ih (some result) later'.world (answered later' after' thread)
  | starting thread task w next _ ih =>
    obtain ⟨m', goes, e, started, goesOn⟩ := h
    exact ⟨m', goes, e, started,
      fun later after thread => ih later.world (goesOn later after thread)⟩

/-- One act after another. -/
theorem Leads.bind {p : Progress μ α} {f : α → Act μ β} {post : Moment μ → Except Panic β → Prop}
    (h : p.Leads (fun m' result => (∀ a, result = .ok a → (f a m'.world).Leads post θ m') ∧
      ∀ e, result = .error e → post m' (.error e)) θ m) :
    (p.bind f).Leads post θ m := by
  rw [bind_eq_goOn]
  refine (h.mono fun m' result _ _ holds thread => ?_).goOn
  cases result with
  | ok a => exact holds.1 a rfl
  | error e => exact ⟨m', .refl _, rfl, thread, holds.2 e rfl⟩

/-- An act whose panic ends with it. -/
theorem Leads.attempt {p : Progress μ α} {post : Moment μ → Except Panic (Except Panic α) → Prop}
    (h : p.Leads (fun m' result => post m' (.ok result)) θ m) : p.attempt.Leads post θ m := by
  rw [attempt_eq_goOn]
  exact (h.mono fun m' _ _ _ holds thread => ⟨m', .refl _, rfl, thread, holds⟩).goOn

end Progress

namespace Act

/-- An act that begins at a moment leads through moments, and something holds of its value when it
ends with one. -/
structure Meets (act : Act μ α) (m : Moment μ) (Q : Moment μ → α → Prop) : Prop where
  /-- It leads there on its own thread. -/
  leads : (act m.world).Leads (fun m' result => ∀ a, result = .ok a → Q m' a) m.world.thread m

namespace Meets

variable {Q Q' : Moment μ → α → Prop} {act : Act μ α}

theorem pure {a : α} (h : Q m a) : (pure a : Act μ α).Meets m Q :=
  ⟨m, .refl m, rfl, rfl, fun _ e => Except.ok.inj e ▸ h⟩

theorem throw (p : Panic) : (throw p : Act μ α).Meets m Q :=
  ⟨m, .refl m, rfl, rfl, fun _ e => by cases e⟩

/-- An act that never stops leads to where it ends. -/
theorem ends {a : α} {w : World μ} (h : act.Meets m Q) (run : act m.world = .done (.ok a) w) :
    ∃ m', m.Goes m' ∧ m'.world = w ∧ Q m' a := by
  have leads := h.leads
  rw [run] at leads
  obtain ⟨m', goes, e, -, holds⟩ := leads
  exact ⟨m', goes, e, holds a rfl⟩

theorem mono (h : act.Meets m Q)
    (weaker : ∀ m' a, m.Goes m' → m'.world.thread = m.world.thread → Q m' a → Q' m' a) :
    act.Meets m Q' :=
  ⟨h.leads.mono fun m' _ goes thread holds a e => weaker m' a goes thread (holds a e)⟩

theorem bind {f : α → Act μ β} {Q : Moment μ → β → Prop}
    (h : act.Meets m fun m' a => (f a).Meets m' Q) : (act >>= f).Meets m Q := by
  refine ⟨Progress.Leads.bind (h.leads.mono fun m' result _ thread holds => ⟨?_, ?_⟩)⟩
  · exact fun a e => thread ▸ (holds a e).leads
  · exact fun _ _ _ e => by cases e

/-- First what the one act meets, then what the other does from there. -/
theorem next {f : α → Act μ β} {Q' : Moment μ → β → Prop} (h : act.Meets m Q)
    (rest : ∀ m' a, m.Goes m' → m'.world.thread = m.world.thread → Q m' a → (f a).Meets m' Q') :
    (act >>= f).Meets m Q' :=
  (h.mono rest).bind

theorem map {f : α → β} {Q : Moment μ → β → Prop} (h : act.Meets m fun m' a => Q m' (f a)) :
    (f <$> act).Meets m Q := by
  rw [map_eq_pure_bind]
  exact (h.mono fun _ _ _ _ holds => .pure holds).bind

/-- Looking at the world changes nothing. -/
theorem get {f : World μ → Act μ α} (h : (f m.world).Meets m Q) :
    (MonadState.get >>= f).Meets m Q := ⟨h.leads⟩

/-- A change that deeds make. -/
theorem modify {f : World μ → World μ} {Q : Moment μ → PUnit → Prop} (goes : m.Goes m')
    (e : m'.world = f m.world) (thread : (f m.world).thread = m.world.thread)
    (h : Q m' PUnit.unit) : (modify f : Act μ PUnit).Meets m Q :=
  ⟨m', goes, e, thread, fun _ _ => h⟩

/-- Two changes that one deed makes. -/
theorem modify_modify {f f' : World μ → World μ} {rest : PUnit → Act μ α}
    (h : (modifyThe (World μ) (fun w => f' (f w)) >>= rest : Act μ α).Meets m Q) :
    (modifyThe (World μ) f >>= fun _ => modifyThe (World μ) f' >>= rest : Act μ α).Meets m Q :=
  ⟨h.leads⟩

theorem tell {Q : Moment μ → Unit → Prop} (e : Event) (h : Q ⟨m.past, m.world.tell e⟩ ()) :
    (Act.tell e).Meets m Q :=
  modify (Moment.Step.aside m _ _ _ _ _ _).goes rfl rfl h

/-- Something is told first. -/
theorem told {e : Event} {f : Unit → Act μ α}
    (rest : ∀ m', m.Goes m' → m'.world.thread = m.world.thread → (f ()).Meets m' Q) :
    (Act.tell e >>= f).Meets m Q :=
  (tell e (Q := fun _ _ => True) trivial).next fun m' _ goes thread _ => rest m' goes thread

/-- A panic that ends with the act. -/
theorem attempt {Q : Moment μ → Except Panic α → Prop} (h : act.Meets m fun m' a => Q m' (.ok a))
    (panics : ∀ m' p, m.Goes m' → Q m' (.error p)) : act.attempt.Meets m Q := by
  refine ⟨Progress.Leads.attempt (h.leads.mono ?_)⟩
  intro m' result goes _ holds r e
  cases e
  cases result with
  | ok a => exact holds a rfl
  | error p => exact panics m' p goes

/-- What every act keeps to, and what stays so, holds of the values of all of them. -/
theorem each {R : Moment μ → β → Prop} {items : List α} {act : α → Act μ β}
    (stays : ∀ {m m' : Moment μ} {b}, m.Goes m' → R m b → R m' b)
    (h : ∀ m' a, m.Goes m' → m'.world.thread = m.world.thread → a ∈ items → (act a).Meets m' R) :
    (Act.each items act).Meets m fun m' results => ∀ b ∈ results, R m' b := by
  induction items generalizing m with
  | nil => exact pure fun b hb => by cases hb
  | cons a rest ih =>
    rw [each_cons]
    refine (h m a (.refl m) rfl List.mem_cons_self).next ?_
    intro m₁ b goes thread first
    refine next (ih ?_) ?_
    · intro m₂ a' goes' thread' mem
      exact h m₂ a' (goes.trans goes') (thread'.trans thread) (List.mem_cons_of_mem a mem)
    · intro m₂ bs goes' thread' others
      apply pure
      intro b' mem
      rcases List.mem_cons.1 mem with rfl | mem
      · exact stays goes' first
      · exact others b' mem

/-- What every act keeps to for its own item holds of the items and their values, one by one. -/
theorem each_forall₂ {R : α → β → Prop} {items : List α} {act : α → Act μ β}
    (h : ∀ m' a, m.Goes m' → a ∈ items → (act a).Meets m' fun _ b => R a b) :
    (Act.each items act).Meets m fun _ results => List.Forall₂ R items results := by
  induction items generalizing m with
  | nil => exact pure .nil
  | cons a rest ih =>
    rw [each_cons]
    refine (h m a (.refl m) List.mem_cons_self).next fun m₁ b goes _ first => ?_
    refine (ih fun m' a' goes' mem => ?_).next fun m₂ bs _ _ others => .pure (.cons first others)
    exact h m' a' (goes.trans goes') (List.mem_cons_of_mem a mem)

theorem makeRoom {Q : Moment μ → Unit → Prop} {item : Room.Item} {count : Nat} (h : Q m ()) :
    (Act.makeRoom item count).Meets m Q := by
  unfold Act.makeRoom
  split
  · exact pure h
  · exact throw _

end Meets

end Act

end TableAccess
