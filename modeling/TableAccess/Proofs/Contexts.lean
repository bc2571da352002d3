import TableAccess.Proofs.Serving

/-!
# What becomes of contexts

A context is started, and from then on its callers and its thread change it, one step after another;
nothing else ever becomes of it. What all these steps keep holds of it for good: a thread that is gone
stays gone.

## The model

* `Context.Change` — one step; `Context.Becomes` — any number of them.
* `Context.Since` — all contexts were changed so, and others were started.
* `Turn.since`, `Reaches.since` — nothing else becomes of the contexts of a timeline.
-/

namespace TableAccess

variable {μ α τ : Type}

namespace Context

/-- What callers and the thread of a context do to it. -/
inductive Change : Context τ → Context τ → Prop where
  /-- A task is accepted. -/
  | accept {context context' : Context τ} {task : τ} (ok : context.accept task = .ok context') :
    Change context context'
  /-- Someone stops it, -/
  | stop (context : Context τ) : Change context context.stop
  /-- or waits for the exit of its thread. -/
  | join (context : Context τ) : Change context context.join.2
  /-- The thread takes the next message, or finds none, -/
  | next (context : Context τ) : Change context context.next
  /-- or is done with its task. -/
  | finish (context : Context τ) : Change context context.finish

/-- What a context becomes, one step after another. -/
def Becomes : Context τ → Context τ → Prop := Relation.ReflTransGen Change

section Becomes

variable {context context' context'' : Context τ}

theorem Becomes.trans (h : context.Becomes context') (h' : context'.Becomes context'') :
    context.Becomes context'' :=
  Relation.ReflTransGen.trans h h'

theorem Change.becomes (h : context.Change context') : context.Becomes context' := .single h

/-- What every step keeps is kept for good. -/
theorem Becomes.keeps {P : Context τ → Prop} (h : context.Becomes context') (holds : P context)
    (step : ∀ {context context' : Context τ}, context.Change context' → P context → P context') :
    P context' := by
  induction h with
  | refl => exact holds
  | tail _ last ih => exact step last ih

theorem Change.gone (h : context.Change context') (gone : context.exited = true) :
    context'.exited = true := by
  cases h with
  | accept ok =>
    rw [(accept_eq_ok ok).2]
    exact gone
  | stop => exact gone
  | join => exact gone
  | next => simp [Context.next, gone]
  | finish => exact gone

/-- A thread that is gone does not come back. -/
theorem Becomes.gone (h : context.Becomes context') (gone : context.exited = true) :
    context'.exited = true :=
  h.keeps gone Change.gone

end Becomes

/-! ### All contexts of a world -/

/-- From some contexts to others all were changed step by step, and new ones were started. -/
structure Since (contexts contexts' : List (Context Ticket)) : Prop where
  /-- A context that was there is there still. -/
  stays : ∀ {c : ContextId} {context : Context Ticket}, contexts[c]? = some context →
    ∃ context', contexts'[c]? = some context' ∧ context.Becomes context'
  /-- One that was not there was started. -/
  started : ∀ {c : ContextId} {context' : Context Ticket}, contexts[c]? = none →
    contexts'[c]? = some context' → ∃ config, (Context.start config).Becomes context'

namespace Since

variable {contexts contexts' contexts'' : List (Context Ticket)}

theorem refl (contexts : List (Context Ticket)) : Since contexts contexts where
  stays hc := ⟨_, hc, .refl⟩
  started none hc := by
    rw [none] at hc
    cases hc

theorem trans (h : Since contexts contexts') (h' : Since contexts' contexts'') :
    Since contexts contexts'' where
  stays hc := by
    obtain ⟨context', hc', becomes⟩ := h.stays hc
    obtain ⟨context'', hc'', becomes'⟩ := h'.stays hc'
    exact ⟨context'', hc'', becomes.trans becomes'⟩
  started {c context''} none hc'' := by
    cases hc' : contexts'[c]? with
    | none => exact h'.started hc' hc''
    | some context' =>
      obtain ⟨config, becomes⟩ := h.started none hc'
      obtain ⟨found, there, becomes'⟩ := h'.stays hc'
      cases there.symm.trans hc''
      exact ⟨config, becomes.trans becomes'⟩

/-- A context is started. -/
theorem append (contexts : List (Context Ticket)) (config : Config) :
    Since contexts (contexts ++ [start config]) where
  stays hc :=
    ⟨_, (List.getElem?_append_left (List.getElem?_eq_some_iff.1 hc).1).trans hc, .refl⟩
  started {c context'} none hc := by
    have later : contexts.length ≤ c := List.getElem?_eq_none_iff.1 none
    rw [List.getElem?_append_right later] at hc
    rw [List.mem_singleton.1 (List.mem_of_getElem? hc)]
    exact ⟨config, .refl⟩

/-- One context is changed. -/
theorem modify {f : Context Ticket → Context Ticket} (c : ContextId)
    (change : ∀ context, contexts[c]? = some context → context.Change (f context)) :
    Since contexts (contexts.modify c f) where
  stays {c' context} hc := by
    rw [List.getElem?_modify, hc]
    by_cases here : c = c'
    · subst here
      exact ⟨f context, by simp, (change context hc).becomes⟩
    · exact ⟨context, by simp [here], .refl⟩
  started none hc := by
    rw [List.getElem?_modify, none] at hc
    cases hc

/-- Contexts are tended. -/
theorem of_tended (h : Relation.ReflTransGen Tended contexts contexts') : Since contexts contexts' := by
  induction h with
  | refl => exact .refl _
  | tail _ last ih =>
    refine ih.trans ?_
    cases last with
    | spawn spawned =>
      rw [spawn_eq_ok spawned]
      exact .append _ _
    | stop c => exact .modify c fun context _ => .stop context
    | join c => exact .modify c fun context _ => .join context

end Since

end Context

/-- A context that is handed a task is changed, and the others are not. -/
theorem World.Accepts.since {w w' : World μ} {c : ContextId} {k : Ticket} (h : w.Accepts c k w') :
    Context.Since w.contexts w'.contexts := by
  obtain ⟨context, context', hc, ok, contexts⟩ := h.accepts
  rw [contexts]
  refine .modify c fun found there => ?_
  cases hc.symm.trans there
  exact .accept ok

namespace Timeline

variable {s s' : Timeline μ}

/-- A thread that works does no more to contexts than to tend them, and then to hand one task over
or to finish its own; the clock stands still. -/
theorem Orderly.tends_works (h : s.Orderly) {strand : Strand μ} (running : s.running = some strand) :
    ∃ w, { s.world with thread := strand.thread }.Tends w ∧
      Context.Since w.contexts (s.works strand).world.contexts ∧
      (s.works strand).world.clock = w.clock := by
  obtain ⟨-, fits, -⟩ := h.vacated running
  obtain ⟨thread, work, caller⟩ := strand
  have keeps := Strand.keeps_iff.1 (fits.keeps false) { s.world with thread := thread } rfl trivial
  rw [works_mk]
  generalize work { s.world with thread := thread } = progress at keeps ⊢
  cases progress with
  | done result w =>
    refine ⟨w, keeps.1.leaves, ?_⟩
    cases thread with
    | client n => exact ⟨.refl _, rfl⟩
    | toolkit c => exact ⟨.modify c fun context _ => .finish context, rfl⟩
  | awaiting holds bound w next => exact ⟨w, keeps.1.leaves, .refl _, rfl⟩
  | leaving c k task w next =>
    obtain ⟨⟨w₁, along, accepts⟩, -⟩ := keeps
    exact ⟨w₁, along.leaves, accepts.since, accepts.clock⟩
  | calling c k bound task w next =>
    obtain ⟨⟨w₁, along, accepts⟩, -⟩ := keeps
    exact ⟨w₁, along.leaves, accepts.since, accepts.clock⟩
  | starting begun task w next =>
    obtain ⟨⟨w₁, along, -, rfl⟩, -⟩ := keeps
    exact ⟨w₁, along.leaves, .refl _, rfl⟩

theorem Orderly.since_works (h : s.Orderly) {strand : Strand μ} (running : s.running = some strand) :
    Context.Since s.world.contexts (s.works strand).world.contexts := by
  obtain ⟨w, tends, since, -⟩ := h.tends_works running
  exact .trans (.of_tended tends.contexts) since

theorem Turn.since (turn : s.Turn s') (h : s.Orderly) :
    Context.Since s.world.contexts s'.world.contexts := by
  cases turn with
  | works running => exact h.since_works running
  | @serves c context free hc due =>
    have world : (s.serves c).world = s.world.modifyContext c Context.next :=
      s.toSchedule.serve_world c
    rw [world]
    exact .modify c fun context _ => .next context
  | _ => exact .refl _

/-- From one time to a later one contexts are changed step by step, and others are started. -/
theorem Reaches.since (later : s.Reaches s') (h : s.Orderly) :
    Context.Since s.world.contexts s'.world.contexts := by
  refine (later.keeps (P := fun s' => s'.Orderly ∧ Context.Since s.world.contexts s'.world.contexts)
    ⟨h, .refl _⟩ ?_).2
  exact fun turn before => ⟨turn.orderly before.1, before.2.trans (turn.since before.1)⟩

/-- Every context was started once, and has been changed step by step. -/
theorem Lived.started (h : s.Lived) {c : ContextId} {context : Context Ticket}
    (hc : s.world.contexts[c]? = some context) : ∃ config, (Context.start config).Becomes context := by
  obtain ⟨memory, work, keeps, reaches⟩ := h
  exact (reaches.since (orderly_start memory keeps)).started rfl hc

end Timeline

end TableAccess
