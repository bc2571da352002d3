import Mathlib.Data.List.Nodup
import TableAccess.Proofs.Tables

/-!
# The books of contexts

At every moment the tasks that a context has accepted, begun and finished are in order: what was
accepted was begun or waits, what was begun is finished but for the task under way. Since a table is
edited by the task that is under way, the edits that the tasks of a context have made come task after
task, in the order in which they were accepted.

## The model

* `Moment.Booked` — the books of a context are in order; `Lived.booked` — that they always are.
* `Moment.editsBy` — what one task has made of a table.
* `Moment.InTurn` — the edits of the tasks of a context come task after task; `Lived.inTurn` — that
  they always do.
-/

namespace TableAccess

variable {μ : Type} {m m' : Moment μ} {c : ContextId} {t : TableId}

/-- A context that was made has just started. -/
theorem Context.spawn_eq_ok {τ : Type} {config : Config} {context : Context τ}
    (h : spawn config = .ok context) : context = start config := by
  unfold spawn at h
  by_cases long : queueLimit ≤ config.queueCapacity
  · simp only [if_pos long] at h
    cases h
  · simp only [if_neg long] at h
    cases room : Room.check .message config.queueCapacity with
    | error p =>
      rw [room] at h
      cases h
    | ok =>
      rw [room] at h
      cases whole : zeroByte? config.threadName with
      | some i =>
        rw [whole] at h
        cases h
      | none =>
        rw [whole] at h
        cases h
        rfl

/-- The task that the executing thread is at is the one under way in its context. -/
theorem World.current_of_task? {w : World μ} {k : Ticket} (h : w.task? = some (c, k)) :
    ∃ context, w.contexts[c]? = some context ∧ context.current = some k := by
  unfold task? at h
  split at h
  · cases h
  · obtain ⟨k', found, same⟩ := Option.map_eq_some_iff.1 h
    obtain ⟨rfl, rfl⟩ := Prod.mk.inj same
    exact Option.bind_eq_some_iff.1 found

/-- The task that a deed is about. -/
def Deed.task? : Deed → Option Task
  | .accepted task | .began task | .finished task => some task
  | _ => none

namespace Moment

/-! ### What is remembered of tasks -/

theorem accepted_of_past {deeds : List Deed} (past : m'.past = m.past ++ deeds) (c : ContextId) :
    m'.accepted c = m.accepted c ++ deeds.filterMap (Deed.accepted? c) := by
  rw [accepted, past, List.filterMap_append]
  rfl

theorem begun_of_past {deeds : List Deed} (past : m'.past = m.past ++ deeds) (c : ContextId) :
    m'.begun c = m.begun c ++ deeds.filterMap (Deed.began? c) := by
  rw [begun, past, List.filterMap_append]
  rfl

theorem finished_of_past {deeds : List Deed} (past : m'.past = m.past ++ deeds) (c : ContextId) :
    m'.finished c = m.finished c ++ deeds.filterMap (Deed.finished? c) := by
  rw [finished, past, List.filterMap_append]
  rfl

/-- Beginnings are remembered as such, and as nothing else. -/
theorem filterMap_began (c : ContextId) (ks : List Ticket) :
    (ks.map fun k => Deed.began (c, k)).filterMap (Deed.accepted? c) = [] ∧
    (ks.map fun k => Deed.began (c, k)).filterMap (Deed.began? c) = ks ∧
    (ks.map fun k => Deed.began (c, k)).filterMap (Deed.finished? c) = [] := by
  induction ks with
  | nil => exact ⟨rfl, rfl, rfl⟩
  | cons k ks ih => simpa [Deed.accepted?, Deed.began?, Deed.finished?, List.filterMap_cons] using ih

/-- The tasks of a context are what is remembered of them. -/
structure SameTasks (m m' : Moment μ) (c : ContextId) : Prop where
  accepted : m'.accepted c = m.accepted c
  begun : m'.begun c = m.begun c
  finished : m'.finished c = m.finished c

/-- Deeds that are about no task of a context change nothing in its books. -/
theorem SameTasks.of_apart {deeds : List Deed} (past : m'.past = m.past ++ deeds)
    (apart : ∀ d ∈ deeds, ∀ k, d.task? ≠ some (c, k)) : SameTasks m m' c := by
  have none : ∀ {f : Deed → Option Ticket}, (∀ d k, f d = some k → d.task? = some (c, k)) →
      deeds.filterMap f = [] := fun {f} about => by
    rw [List.filterMap_eq_nil_iff]
    intro d hd
    cases e : f d with
    | none => rfl
    | some k => exact absurd (about d k e) (apart d hd k)
  refine ⟨?_, ?_, ?_⟩
  · rw [accepted_of_past past, none fun d k e => ?_, List.append_nil]
    cases d <;> simp_all [Deed.accepted?, Deed.task?, Prod.ext_iff]
  · rw [begun_of_past past, none fun d k e => ?_, List.append_nil]
    cases d <;> simp_all [Deed.began?, Deed.task?, Prod.ext_iff]
  · rw [finished_of_past past, none fun d k e => ?_, List.append_nil]
    cases d <;> simp_all [Deed.finished?, Deed.task?, Prod.ext_iff]

theorem tableStep_task? {w : World μ} {deeds : List Deed} {tables : List (Option Table)}
    (h : TableStep w deeds tables) {d : Deed} (hd : d ∈ deeds) : d.task? = none := by
  obtain ⟨t, ⟨g, rfl⟩ | ⟨task, e, rfl⟩ | rfl⟩ := tableStep_deed h hd <;> rfl

theorem treeStep_task? {deeds : List Deed} {trees : List Tree} {peers : List Peer}
    {bridges : List Bridge} (h : TreeStep m deeds trees peers bridges) {d : Deed} (hd : d ∈ deeds) :
    d.task? = none := by
  obtain ⟨a, rfl⟩ | ⟨t, nodes, rfl⟩ := treeStep_deed h hd <;> rfl

/-! ### Books -/

/-- The books of a context are in order. -/
structure Booked (m : Moment μ) (c : ContextId) : Prop where
  /-- What was accepted was begun or waits; what was begun is finished or under way. -/
  ledger : ∀ {context : Context Ticket}, m.world.contexts[c]? = some context →
    context.Ledger (m.accepted c) (m.begun c) (m.finished c)
  /-- A context that is not started yet has no tasks. -/
  unborn : m.world.contexts[c]? = none → m.accepted c = [] ∧ m.begun c = [] ∧ m.finished c = []
  /-- The tickets of its tasks were given out. -/
  given : ∀ k ∈ m.accepted c, k < m.world.tickets
  /-- No ticket was given twice. -/
  once : (m.accepted c).Nodup

theorem booked_first (memory : μ) (c : ContextId) : (first memory).Booked c := by
  refine ⟨fun h => ?_, fun _ => ⟨rfl, rfl, rfl⟩, fun k hk => ?_, List.nodup_nil⟩
  · simp [first, World.empty] at h
  · simp [first, accepted] at hk

/-- What is kept when nothing happens to a context. -/
theorem Booked.of_same (h : m.Booked c) (same : SameTasks m m' c)
    (context : m'.world.contexts[c]? = m.world.contexts[c]?)
    (tickets : m.world.tickets ≤ m'.world.tickets) : m'.Booked c where
  ledger hc := by
    rw [same.accepted, same.begun, same.finished]
    exact h.ledger (context ▸ hc)
  unborn hc := by
    rw [same.accepted, same.begun, same.finished]
    exact h.unborn (context ▸ hc)
  given k hk := Nat.lt_of_lt_of_le (h.given k (same.accepted ▸ hk)) tickets
  once := by
    rw [same.accepted]
    exact h.once

/-- What is kept when something happens to a context that accepts nothing. -/
theorem Booked.of_ledger (context : Context Ticket) (h : m.Booked c)
    (hc : m'.world.contexts[c]? = some context)
    (ledger : context.Ledger (m'.accepted c) (m'.begun c) (m'.finished c))
    (accepted : m'.accepted c = m.accepted c) (tickets : m.world.tickets ≤ m'.world.tickets) :
    m'.Booked c where
  ledger hc' := by
    rw [hc] at hc'
    cases hc'
    exact ledger
  unborn hc' := by
    rw [hc] at hc'
    cases hc'
  given k hk := Nat.lt_of_lt_of_le (h.given k (accepted ▸ hk)) tickets
  once := by
    rw [accepted]
    exact h.once

/-- What is kept when a context is changed in a way that keeps its books. -/
theorem Booked.of_modify {f : Context Ticket → Context Ticket} (h : m.Booked c) (c₀ : ContextId)
    (keeps : ∀ {context : Context Ticket} {accepted begun finished},
      context.Ledger accepted begun finished → (f context).Ledger accepted begun finished) :
    Booked ⟨m.past ++ [], { m.world with
      contexts := m.world.contexts.modify c₀ f, tickets := m.world.tickets }⟩ c := by
  have same : SameTasks m ⟨m.past ++ [], { m.world with
      contexts := m.world.contexts.modify c₀ f, tickets := m.world.tickets }⟩ c :=
    .of_apart rfl fun d hd => by cases hd
  cases hc : m.world.contexts[c]? with
  | none =>
    refine h.of_same same ?_ (Nat.le_refl _)
    simp [List.getElem?_modify, hc]
  | some context =>
    refine h.of_ledger (if c₀ = c then f context else context) ?_ ?_ same.accepted
      (Nat.le_refl _)
    · simp [List.getElem?_modify, hc]
    · rw [same.accepted, same.begun, same.finished]
      split
      · exact keeps (h.ledger hc)
      · exact h.ledger hc

/-- The books of a context that a deed is not about stay as they are. -/
theorem Booked.of_other {deeds : List Deed} {tickets : Nat} {f : Context Ticket → Context Ticket}
    {c₀ : ContextId} (h : m.Booked c) (other : c₀ ≠ c)
    (apart : ∀ d ∈ deeds, ∀ k, d.task? ≠ some (c, k)) (grows : m.world.tickets ≤ tickets) :
    Booked ⟨m.past ++ deeds, { m.world with
      contexts := m.world.contexts.modify c₀ f, tickets := tickets }⟩ c := by
  refine h.of_same (.of_apart rfl apart) ?_ grows
  simp [other]

theorem Booked.spawn {config : Config} {context : Context Ticket} (h : m.Booked c)
    (spawned : Context.spawn config = .ok context) :
    Booked ⟨m.past ++ [], { m.world with contexts := m.world.contexts ++ [context] }⟩ c := by
  have nothing : SameTasks m ⟨m.past ++ [], { m.world with
      contexts := m.world.contexts ++ [context] }⟩ c :=
    .of_apart rfl fun d hd => by cases hd
  rcases Nat.lt_trichotomy c m.world.contexts.length with lt | rfl | gt
  · exact h.of_same nothing (List.getElem?_append_left lt) (Nat.le_refl _)
  · obtain ⟨accepted, begun, finished⟩ := h.unborn (List.getElem?_eq_none (Nat.le_refl _))
    refine h.of_ledger context (by simp) ?_ nothing.accepted (Nat.le_refl _)
    rw [nothing.accepted, nothing.begun, nothing.finished, accepted, begun, finished,
      Context.spawn_eq_ok spawned]
    exact .start config
  · refine h.of_same nothing ?_ (Nat.le_refl _)
    rw [List.getElem?_eq_none (Nat.le_of_lt gt), List.getElem?_eq_none]
    simpa using Nat.succ_le_of_lt gt

/-- The ticket of a task that is accepted is new. -/
theorem Booked.accept {context context' : Context Ticket} (h : m.Booked c)
    (hc : m.world.contexts[c]? = some context) (accepts : context.accept m.world.tickets = .ok context') :
    Booked ⟨m.past ++ [.accepted (c, m.world.tickets)], { m.world with
      contexts := m.world.contexts.modify c fun _ => context'
      tickets := m.world.tickets + 1 }⟩ c := by
  have books := (h.ledger hc).accept accepts
  have new : m.world.tickets ∉ m.accepted c := fun mem => Nat.lt_irrefl _ (h.given _ mem)
  refine ⟨fun {context₁} hc₁ => ?_, fun none => ?_, fun k hk => ?_, ?_⟩
  · rw [accepted_of_past rfl, begun_of_past rfl, finished_of_past rfl]
    simp only [List.getElem?_modify_eq, hc] at hc₁
    cases hc₁
    simpa [Deed.accepted?, Deed.began?, Deed.finished?, List.filterMap_cons] using books
  · simp [hc] at none
  · rw [accepted_of_past rfl] at hk
    rcases List.mem_append.1 hk with old | last
    · exact Nat.lt_succ_of_lt (h.given k old)
    · obtain rfl : k = m.world.tickets := by simpa [Deed.accepted?] using last
      exact Nat.lt_succ_self _
  · rw [accepted_of_past rfl]
    have one : [Deed.accepted (c, m.world.tickets)].filterMap (Deed.accepted? c) =
        [m.world.tickets] := by
      simp [Deed.accepted?]
    rw [one]
    exact List.nodup_append.2 ⟨h.once, List.nodup_singleton _, fun k hk k' hk' same =>
      new (List.mem_singleton.1 hk' ▸ same ▸ hk)⟩

theorem Booked.contextStep {deeds : List Deed} {contexts : List (Context Ticket)} {tickets : Nat}
    (h : m.Booked c) (step : ContextStep m.world deeds contexts tickets) :
    Booked ⟨m.past ++ deeds, { m.world with contexts := contexts, tickets := tickets }⟩ c := by
  cases step with
  | spawn spawned => exact h.spawn spawned
  | @accept c₀ context context' hc accepts =>
    by_cases here : c₀ = c
    · subst here
      exact h.accept hc accepts
    · exact h.of_other here (by simp [Deed.task?, here]) (Nat.le_succ _)
  | stop c₀ => exact h.of_modify c₀ fun ledger => ledger.stop
  | join c₀ => exact h.of_modify c₀ fun ledger => ledger.join
  | @next c₀ context hc =>
    by_cases here : c₀ = c
    · subst here
      refine h.of_ledger context.next ?_ ?_ ?_ (Nat.le_refl _)
      · simp [hc]
      · obtain ⟨accepted, begun, finished⟩ := filterMap_began c₀ context.beginning
        rw [accepted_of_past rfl, begun_of_past rfl, finished_of_past rfl, accepted, begun, finished,
          List.append_nil, List.append_nil]
        exact (h.ledger hc).next
      · rw [accepted_of_past rfl, (filterMap_began c₀ context.beginning).1, List.append_nil]
    · exact h.of_other here (by simp [Deed.task?, here]) (Nat.le_refl _)
  | @finish c₀ context task hc current =>
    by_cases here : c₀ = c
    · subst here
      refine h.of_ledger context.finish ?_ ?_ ?_ (Nat.le_refl _)
      · simp [hc]
      · rw [accepted_of_past rfl, begun_of_past rfl, finished_of_past rfl]
        simpa [Deed.accepted?, Deed.began?, Deed.finished?, List.filterMap_cons] using
          (h.ledger hc).finish current
      · rw [accepted_of_past rfl]
        simp [Deed.accepted?]
    · exact h.of_other here (by simp [Deed.task?, here]) (Nat.le_refl _)

theorem Step.booked (h : m.Booked c) (step : m.Step m') : m'.Booked c := by
  cases step with
  | aside => exact h.of_same ⟨rfl, rfl, rfl⟩ rfl (Nat.le_refl _)
  | contexts step => exact h.contextStep step
  | tables step =>
    exact h.of_same (.of_apart rfl fun d hd k => by simp [tableStep_task? step hd]) rfl
      (Nat.le_refl _)
  | trees step =>
    exact h.of_same (.of_apart rfl fun d hd k => by simp [treeStep_task? step hd]) rfl
      (Nat.le_refl _)

/-- The books of all contexts are in order at every moment. -/
theorem Lived.booked (h : m.Lived) (c : ContextId) : m.Booked c :=
  h.keeps (fun memory => booked_first memory c) fun step ih => step.booked ih

/-- The tasks of a context are begun once each. -/
theorem Booked.begun_nodup (h : m.Booked c) : (m.begun c).Nodup := by
  cases hc : m.world.contexts[c]? with
  | none =>
    rw [(h.unborn hc).2.1]
    exact List.nodup_nil
  | some context =>
    have once := h.once
    rw [(h.ledger hc).order] at once
    exact (List.nodup_append.1 once).1

/-! ### Edits -/

/-- What one task has made of a table. -/
def editsBy (m : Moment μ) (t : TableId) (task : Task) : List Edit :=
  (m.edits t).filterMap fun (author, e) => if author = some task then some e else none

/-- What the tasks of one context have made of a table. -/
def editsOf (m : Moment μ) (t : TableId) (c : ContextId) : List Edit :=
  (m.edits t).filterMap fun (author, e) => if author.map Prod.fst = some c then some e else none

/-- A deed is no edit of a table, or one by the task at which the executing thread is. -/
theorem Step.edits (step : m.Step m') (t : TableId) (c : ContextId) :
    m'.edits t = m.edits t ∨
      ∃ e, m'.edits t = m.edits t ++ [(m.world.task?, e)] ∧ m'.begun c = m.begun c := by
  cases step with
  | aside => exact .inl rfl
  | contexts step =>
    refine .inl ?_
    rw [edits_of_past rfl, List.filterMap_eq_nil_iff.2, List.append_nil]
    intro d hd
    have := contextStep_table? step hd
    cases d <;> simp_all [Deed.edit?, Deed.table?]
  | trees step =>
    refine .inl ?_
    rw [edits_of_past rfl, List.filterMap_eq_nil_iff.2, List.append_nil]
    intro d hd
    have := treeStep_table? step hd
    cases d <;> simp_all [Deed.edit?, Deed.table?]
  | @tables deeds tables step =>
    have apart : ∀ d ∈ deeds, ∀ k, d.task? ≠ some (c, k) := fun d hd k => by
      simp [tableStep_task? step hd]
    cases step with
    | @edit t' g g' e reply ht h =>
      by_cases here : t' = t
      · refine .inr ⟨e, ?_, (SameTasks.of_apart rfl apart).begun⟩
        rw [edits_of_past rfl]
        simp [Deed.edit?, here]
      · refine .inl ?_
        rw [edits_of_past rfl]
        simp [Deed.edit?, here]
    | _ =>
      refine .inl ?_
      rw [edits_of_past rfl]
      simp [Deed.edit?]

/-- The edits by the tasks of a context come task after task, in the order in which they were
begun. -/
structure InTurn (m : Moment μ) (c : ContextId) (t : TableId) : Prop where
  /-- Their authors were begun. -/
  authors : ∀ {k : Ticket} {e : Edit}, (some (c, k), e) ∈ m.edits t → k ∈ m.begun c
  /-- The edits of one come before those of the next. -/
  order : m.editsOf t c = (m.begun c).flatMap fun k => m.editsBy t (c, k)

/-- A task that was not begun has made no edits. -/
theorem InTurn.editsBy_of_not_begun {k : Ticket} (h : m.InTurn c t) (waits : k ∉ m.begun c) :
    m.editsBy t (c, k) = [] := by
  rw [editsBy, List.filterMap_eq_nil_iff]
  rintro ⟨author, e⟩ mem
  refine if_neg fun own => waits (h.authors (e := e) ?_)
  exact own ▸ mem

theorem inTurn_first (memory : μ) (c : ContextId) (t : TableId) : (first memory).InTurn c t :=
  ⟨fun h => by simp [first, edits] at h, rfl⟩

/-- Tasks may be begun that have made no edits yet. -/
theorem InTurn.of_same {deeds : List Deed} (h : m.InTurn c t) (books : m'.Booked c)
    (same : m'.edits t = m.edits t) (past : m'.past = m.past ++ deeds) : m'.InTurn c t := by
  have begun := begun_of_past past c
  have once := books.begun_nodup
  rw [begun] at once
  have by_same : ∀ task, m'.editsBy t task = m.editsBy t task := fun task => by
    rw [editsBy, same, editsBy]
  have nothing : (deeds.filterMap (Deed.began? c)).flatMap (fun k => m.editsBy t (c, k)) = [] := by
    rw [List.flatMap_eq_nil_iff]
    intro k new
    exact h.editsBy_of_not_begun fun old => (List.nodup_append.1 once).2.2 k old k new rfl
  refine ⟨fun {k e} mem => ?_, ?_⟩
  · rw [begun]
    exact List.mem_append_left _ (h.authors (same ▸ mem))
  · simp only [by_same]
    rw [begun, List.flatMap_append, nothing, List.append_nil, ← h.order, editsOf, same, editsOf]

theorem editsBy_of_more {author : Option Task} {e : Edit} (more : m'.edits t = m.edits t ++ [(author, e)])
    (task : Task) :
    m'.editsBy t task = m.editsBy t task ++ if author = some task then [e] else [] := by
  rw [editsBy, more, List.filterMap_append, editsBy]
  by_cases own : author = some task <;> simp [own]

theorem editsOf_of_more {author : Option Task} {e : Edit} (more : m'.edits t = m.edits t ++ [(author, e)])
    (c : ContextId) :
    m'.editsOf t c = m.editsOf t c ++ if author.map Prod.fst = some c then [e] else [] := by
  rw [editsOf, more, List.filterMap_append, editsOf]
  by_cases own : author.map Prod.fst = some c <;> simp [own]

/-- The task under way was begun last, so its edit comes behind those of the tasks before it. -/
theorem InTurn.of_own {j : Ticket} {e : Edit} (h : m.InTurn c t) (books : m.Booked c)
    (more : m'.edits t = m.edits t ++ [(some (c, j), e)]) (begun : m'.begun c = m.begun c)
    (author : m.world.task? = some (c, j)) : m'.InTurn c t := by
  obtain ⟨context, hc, current⟩ := World.current_of_task? author
  have last : m.begun c = m.finished c ++ [j] := by
    rw [(books.ledger hc).busy, current]
    rfl
  have once := books.begun_nodup
  rw [last] at once
  have earlier : ∀ k ∈ m.finished c, m'.editsBy t (c, k) = m.editsBy t (c, k) := by
    intro k hk
    have other : k ≠ j := fun same =>
      (List.nodup_append.1 once).2.2 k hk j (List.mem_singleton_self j) same
    rw [editsBy_of_more more]
    simp [Ne.symm other]
  refine ⟨fun {k e'} mem => ?_, ?_⟩
  · rw [more, List.mem_append] at mem
    rcases mem with old | new
    · exact begun ▸ h.authors old
    · simp only [List.mem_singleton, Prod.mk.injEq, Option.some.injEq, true_and] at new
      rw [begun, last, new.1]
      exact List.mem_append_right _ (List.mem_singleton_self j)
  · have own : (some (c, j)).map Prod.fst = some c := rfl
    rw [editsOf_of_more more, if_pos own, h.order, begun, last, List.flatMap_append,
      List.flatMap_append, List.flatMap_congr earlier, List.append_assoc]
    simp [editsBy_of_more more]

/-- An edit that no task of the context makes changes none of theirs. -/
theorem InTurn.of_other {author : Option Task} {e : Edit} (h : m.InTurn c t)
    (more : m'.edits t = m.edits t ++ [(author, e)]) (begun : m'.begun c = m.begun c)
    (other : author.map Prod.fst ≠ some c) : m'.InTurn c t := by
  have by_same : ∀ k, m'.editsBy t (c, k) = m.editsBy t (c, k) := fun k => by
    rw [editsBy_of_more more, if_neg fun same => other (by rw [same]; rfl), List.append_nil]
  refine ⟨fun {k e'} mem => ?_, ?_⟩
  · rw [more, List.mem_append] at mem
    rcases mem with old | new
    · exact begun ▸ h.authors old
    · rw [List.mem_singleton, Prod.mk.injEq] at new
      exact absurd (by rw [← new.1]; rfl) other
  · rw [editsOf_of_more more, if_neg other, List.append_nil, h.order, begun]
    simp only [by_same]

theorem InTurn.step (h : m.InTurn c t) (books : m.Booked c) (step : m.Step m') :
    m'.InTurn c t := by
  rcases step.edits t c with same | ⟨e, more, begun⟩
  · obtain ⟨deeds, past⟩ := step.past
    exact h.of_same (step.booked books) same past.symm
  · by_cases own : m.world.task?.map Prod.fst = some c
    · obtain ⟨⟨c', j⟩, author, rfl⟩ := Option.map_eq_some_iff.1 own
      exact h.of_own books (author ▸ more) begun author
    · exact h.of_other more begun own

/-- The edits by the tasks of a context come task after task, at every moment. -/
theorem Lived.inTurn (h : m.Lived) (c : ContextId) (t : TableId) : m.InTurn c t := by
  refine (h.keeps (P := fun m => m.Lived ∧ m.InTurn c t) (fun memory => ?_) fun step ih => ?_).2
  · exact ⟨⟨memory, .refl _⟩, inTurn_first memory c t⟩
  · exact ⟨ih.1.goes step.goes, ih.2.step (ih.1.booked c) step⟩

/-! ### What a task finds -/

/-- When a task begins, the tasks finished are those that were accepted before it. -/
theorem Lived.finished_eq_accepted {s : Moment μ} {k : Ticket} (h : s.Lived)
    (current : s.world.task? = some (c, k)) (accepted : m.past ++ [.accepted (c, k)] <+: s.past) :
    s.finished c = m.accepted c := by
  obtain ⟨context, hc, busy⟩ := World.current_of_task? current
  have books := h.booked c
  have ledger := books.ledger hc
  obtain ⟨rest, past⟩ := accepted
  have before : s.accepted c =
      m.accepted c ++ k :: rest.filterMap (Deed.accepted? c) := by
    rw [Moment.accepted, ← past, List.filterMap_append, List.filterMap_append, List.append_assoc]
    simp [Deed.accepted?, Moment.accepted]
  have begun : s.accepted c = s.finished c ++ k :: context.waiting := by
    rw [ledger.order, ledger.busy, busy]
    simp
  have once := books.once
  rw [before] at once
  have other := (List.nodup_cons.1 (List.nodup_middle.1 once)).1
  rw [List.mem_append, not_or] at other
  exact ((List.append_cons_inj_of_notMem other.1 other.2).1 (before.symm.trans begun)).1.symm

/-- A task that has edited nothing yet finds what the tasks before it have made of a table. -/
theorem Lived.editsOf_eq {k : Ticket} (h : m.Lived) (current : m.world.task? = some (c, k))
    (fresh : m.editsBy t (c, k) = []) :
    m.editsOf t c = (m.finished c).flatMap fun j => m.editsBy t (c, j) := by
  obtain ⟨context, hc, busy⟩ := World.current_of_task? current
  rw [(h.inTurn c t).order, ((h.booked c).ledger hc).busy, busy, List.flatMap_append]
  simp [fresh]

/-- If only tasks of one context edit a table, its edits are theirs. -/
theorem edits_eq_editsOf (only : ∀ x ∈ m.edits t, ∃ k, x.1 = some (c, k)) :
    (m.edits t).map Prod.snd = m.editsOf t c := by
  unfold editsOf
  generalize m.edits t = edits at only
  induction edits with
  | nil => rfl
  | cons x rest ih =>
    obtain ⟨k, own⟩ := only x List.mem_cons_self
    obtain ⟨author, e⟩ := x
    obtain rfl : author = some (c, k) := own
    rw [List.map_cons, List.filterMap_cons, ih fun y hy => only y (List.mem_cons_of_mem _ hy)]
    simp

end Moment

end TableAccess
