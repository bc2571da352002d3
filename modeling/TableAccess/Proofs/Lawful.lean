import TableAccess.Outline
import TableAccess.Proofs.Leads
import TableAccess.Proofs.Peers

/-!
# Everything is done by deeds

Whatever is asked of a bridge, a tree, a node or a peer, the act that answers is made of deeds: it
leads from a moment that can come to be through others, and the nodes it yields were made.

## The model

* `Act.Lawful` — an act is made of deeds.
* `Inquiry.All` — what every outcome of an inquiry satisfies.
* `handOff_meets`, `query_lawful`, … — one rule for each act.
-/

namespace TableAccess

variable {μ α β : Type} {m m' : Moment μ} {t : TableId} {p : PeerId} {c : ContextId}

/-- An act that begins at a moment is made of deeds. -/
def Act.Lawful (act : Act μ α) (m : Moment μ) : Prop := act.Meets m fun _ _ => True

/-! ### Inquiries -/

namespace Inquiry

/-- Every value an inquiry can end with satisfies `P`. -/
def All (P : α → Prop) : Inquiry α → Prop
  | .done a => P a
  | .fail _ => True
  | .ask q next => ∀ answer : q.Answer, (next answer).All P

theorem All.bind {P : α → Prop} {Q : β → Prop} {i : Inquiry α} {f : α → Inquiry β} (h : i.All P)
    (rest : ∀ a, P a → (f a).All Q) : (i >>= f).All Q := by
  show (i.bind f).All Q
  induction i with
  | done a => exact rest a h
  | fail p => trivial
  | ask q next ih => exact fun answer => ih answer (h answer)

theorem all_true (i : Inquiry α) : i.All fun _ => True := by
  induction i with
  | done a => trivial
  | fail p => trivial
  | ask q next ih => exact ih

theorem All.run {P : α → Prop} {i : Inquiry α} (h : i.All P) {checksOn : Bool} {now : Thread}
    {table : Table} {a : α} (e : (i.run checksOn now table).1 = .ok a) : P a := by
  induction i generalizing table with
  | done b =>
    cases e
    exact h
  | fail p => cases e
  | ask q next ih =>
    simp only [Inquiry.run] at e
    split at e
    · exact ih _ (h _) e
    · cases e

theorem All.eval {P : α → Prop} {i : Inquiry α} (h : i.All P) {answer : (q : Question) → q.Answer}
    {a : α} (e : i.eval answer = .ok a) : P a := by
  induction i with
  | done b =>
    cases e
    exact h
  | fail p => cases e
  | ask q next ih => exact ih _ (h _) e

/-- The answers of a table come by deeds. -/
theorem goes_run (i : Inquiry α) {table : Table} (ht : m.world.table? t = some table) :
    m.Goes ⟨m.past, m.world.setTable t
      (some (i.run m.world.checksOn m.world.thread table).2)⟩ := by
  induction i generalizing m table with
  | done | fail =>
    show m.Goes ⟨m.past, m.world.setTable t (some table)⟩
    rw [World.setTable_self ht]
    exact .refl m
  | ask q next ih =>
    have asked : m.Step ⟨m.past, m.world.setTable t
        (some (table.ask m.world.checksOn m.world.thread q).2)⟩ := by
      have step := Moment.Step.tables (.ask ht q)
      rwa [List.append_nil] at step
    have there : (m.world.setTable t
        (some (table.ask m.world.checksOn m.world.thread q).2)).table? t =
        some (table.ask m.world.checksOn m.world.thread q).2 := by
      rw [World.table?_eq_some_iff]
      simp [World.setTable, World.table?_lt ht]
    simp only [Inquiry.run]
    cases e : table.ask m.world.checksOn m.world.thread q with
    | mk answer table' =>
      rw [e] at asked there
      cases answer with
      | error p => exact asked.goes
      | ok a =>
        have rest := ih a (m := ⟨m.past, m.world.setTable t (some table')⟩) there
        refine asked.goes.trans ?_
        simpa [World.setTable] using rest

end Inquiry

/-! ### Hand-offs -/

/-- A task is done on the thread of its context. -/
theorem World.thread_of_task? {w : World μ} {ticket : Ticket} (h : w.task? = some (c, ticket)) :
    w.thread = .toolkit c := by
  unfold World.task? at h
  split at h
  · cases h
  · rename_i thread
    obtain ⟨_, -, same⟩ := Option.map_eq_some_iff.1 h
    rw [thread, (Prod.mk.inj same).1]

namespace Act.Meets

/-- Work called for is done on the context's thread, or given up. -/
theorem call {task : Act μ α} {ticket : Ticket} {bound : Duration}
    {Q : Moment μ → Option (Except Panic α) → Prop} (givenUp : ∀ m', m.Goes m' → Q m' none)
    (panicked : ∀ m' p, m.Goes m' → Q m' (some (.error p)))
    (done : ∀ m', m.Goes m' → m'.world.thread = .toolkit c →
      task.Meets m' fun ended a => ∀ m'', ended.Goes m'' → Q m'' (some (.ok a))) :
    (Act.call c ticket bound task).Meets m Q := by
  refine ⟨⟨m, .refl m, rfl, ?_, ?_⟩⟩
  · intro later goes current
    have thread := World.thread_of_task? current
    have leads := (done later goes thread).leads
    rw [thread] at leads
    apply leads.mono
    intro ended result goes' _ holds later' after thread'
    refine ⟨later', .refl later', rfl, thread', ?_⟩
    intro a e
    cases e
    cases result with
    | ok a => exact holds a rfl later' after
    | error p => exact panicked later' p (goes.trans (goes'.trans after))
  · intro later goes thread
    refine ⟨later, .refl later, rfl, thread, ?_⟩
    intro a e
    cases e
    exact givenUp later goes

/-- Work left to a context is done on its thread. -/
theorem leave {task : Act μ Unit} {ticket : Ticket} {Q : Moment μ → Unit → Prop}
    (after : ∀ m', m.Goes m' → Q m' ())
    (done : ∀ m', m.Goes m' → m'.world.thread = .toolkit c → task.Lawful m') :
    (Act.leave c ticket task).Meets m Q := by
  refine ⟨⟨m, .refl m, rfl, ?_, ?_⟩⟩
  · intro later goes current
    have thread := World.thread_of_task? current
    have leads := Act.Meets.leads (done later goes thread)
    rw [thread] at leads
    exact leads.mono fun _ _ _ _ _ => trivial
  · intro later goes thread
    exact ⟨later, .refl later, rfl, thread, fun _ _ => after later goes⟩

end Act.Meets

/-- A place in a queue is taken with one deed, or refused. -/
theorem enqueue_meets (c : ContextId) : (enqueue c : Act μ _).Meets m fun _ result =>
    ∀ u, result = .error u → u.isContextFailure = true := by
  unfold enqueue
  refine .get ?_
  split
  · exact .pure fun u e => by cases e; rfl
  · rename_i context hc
    split
    · exact .pure fun u e => by cases e; rfl
    · exact .told fun _ _ _ => .pure fun u e => by cases e; rfl
    · rename_i accepted h
      refine Act.Meets.next (Q := fun _ _ => True) ?_ fun _ _ _ _ _ => .pure fun u e => by cases e
      exact .modify (Moment.Step.contexts (.accept hc h)).goes rfl rfl trivial

/-- Work that a context has accepted is done on its thread. -/
theorem runQueued_meets {name : String} {ticket : Ticket} {bound : Duration} {work : Act μ α}
    {Q : Moment μ → Except Unavailable α → Prop} (failed : ∀ m' u, m.Goes m' → u.isContextFailure = true → Q m' (.error u))
    (worked : ∀ m', m.Goes m' → m'.world.thread = .toolkit c →
      work.Meets m' fun ended a => ∀ m'', ended.Goes m'' → Q m'' (.ok a)) :
    (runQueued c name ticket bound work).Meets m Q := by
  unfold runQueued
  refine .get ?_
  by_cases fits : bound.FitsClock m.world.clock
  · rw [if_pos fits]
    refine Act.Meets.bind (.call (fun m' after => ?_) (fun m' p after => ?_)
      fun m' after thread => ?_)
    · unfold giveUp
      refine .get (.told ?_)
      intro m'' later _
      exact .pure (failed m'' _ (after.trans later) rfl)
    · exact .pure (failed m' _ after rfl)
    · refine (worked m' after thread).mono ?_
      intro ended a _ _ holds m'' later
      exact .pure (holds m'' later)
  · rw [if_neg fits]
    refine (Act.Meets.leave (Q := fun _ _ => True) (fun _ _ => trivial)
      fun m' after thread => ?_).next fun _ _ _ _ _ => .throw _
    exact (worked m' after thread).next fun _ _ _ _ _ => .pure trivial

/-- Work that is handed over is done on the context's thread, at once or later, or it fails. -/
theorem handOff_meets {bound : Option Duration} {work : Act μ α}
    {Q : Moment μ → Except Unavailable α → Prop} (failed : ∀ m' u, m.Goes m' → u.isContextFailure = true → Q m' (.error u))
    (worked : ∀ m', m.Goes m' → m'.world.thread = .toolkit c →
      work.Meets m' fun ended a => ∀ m'', ended.Goes m'' → Q m'' (.ok a)) :
    (handOff c bound work).Meets m Q := by
  unfold handOff
  refine .told fun m₁ goes₁ _ => .get ?_
  split
  · exact .pure (failed m₁ _ goes₁ rfl)
  · rename_i context hc
    split
    · rename_i here
      unfold runInline
      refine Act.Meets.next (Q := fun m' r => m₁.Goes m' ∧ ∀ a, r = .ok a →
        ∀ m'', m'.Goes m'' → Q m'' (.ok a)) ?_ fun m₂ r _ _ ⟨goes₂, done⟩ => ?_
      · refine .attempt ?_ fun m' p goes => ⟨goes, fun _ e => by cases e⟩
        refine (worked m₁ goes₁ here).mono ?_
        intro m' a goes _ holds
        refine ⟨goes, ?_⟩
        intro b e
        cases e
        exact holds
      · cases r with
        | ok a => exact .pure (done a rfl m₂ (.refl m₂))
        | error p =>
          refine .told ?_
          intro m₃ goes₃ _
          exact .pure (failed m₃ _ (goes₁.trans (goes₂.trans goes₃)) rfl)
    · refine (enqueue_meets c).next ?_
      intro m₂ r goes₂ _ refused
      cases r with
      | error cause => exact .pure (failed m₂ _ (goes₁.trans goes₂) (refused cause rfl))
      | ok ticket =>
        have goes := goes₁.trans goes₂
        exact runQueued_meets (fun m' u after => failed m' u (goes.trans after))
          fun m' after thread => worked m' (goes.trans after) thread

/-! ### Readings -/

/-- Liveness is asked first, and a reading that says so has found the table disposed of. -/
theorem run_ofLive (read : Inquiry (Except Unavailable α)) (checksOn : Bool) (now : Thread)
    (table : Table) :
    (Reading.ofLive read).run checksOn now table =
      match table.ask checksOn now .isDisposed with
      | (.ok true, table') => (.ok (.error .stalePeer), table')
      | (.ok false, table') => read.run checksOn now table'
      | (.error p, table') => (.error p, table') := by
  show (Inquiry.ask .isDisposed _).run checksOn now table = _
  simp only [Inquiry.run]
  rcases table.ask checksOn now .isDisposed with ⟨answer, table'⟩
  cases answer with
  | error p => rfl
  | ok disposed => cases disposed <;> rfl

/-- A reading comes to nothing, or to a stale peer, only when the table is gone. -/
theorem consult_meets {read : Inquiry (Except Unavailable α)}
    (honest : read.All (· ≠ .error .stalePeer)) (there : t < m.world.tables.length) :
    (consult t (Reading.ofLive read)).Meets m fun m' result =>
      (result = none ∨ result = some (.error .stalePeer)) → m'.Lost t := by
  unfold consult
  refine .get ?_
  split
  · rename_i gone
    exact .pure fun _ => .inl ⟨gone, there⟩
  · rename_i table ht
    have run := run_ofLive read m.world.checksOn m.world.thread table
    have goes := Inquiry.goes_run (Reading.ofLive read) ht
    have asked := fun h => Moment.Step.tables (TableStep.askDisposed (w := m.world) ht h)
    generalize (Reading.ofLive read).run m.world.checksOn m.world.thread table = r at run goes
    obtain ⟨result, table₂⟩ := r
    simp only
    cases e : table.ask m.world.checksOn m.world.thread .isDisposed with
    | mk answer table₁ =>
      rw [e] at run asked
      cases answer with
      | error p =>
        cases run
        exact (Act.Meets.modify (Q := fun _ _ => True) goes rfl rfl trivial).next
          fun _ _ _ _ _ => .throw p
      | ok disposed =>
        cases disposed with
        | true =>
          cases run
          refine (Act.Meets.modify (Q := fun m' _ => m'.Lost t) (asked rfl).goes rfl rfl
            (.inr (by simp))).next fun _ _ _ _ lost => .pure fun _ => lost
        | false =>
          refine (Act.Meets.modify (Q := fun _ _ => True) goes rfl rfl trivial).next
            fun m' _ _ _ _ => ?_
          cases result with
          | error p => exact .throw p
          | ok a =>
            have value : (read.run m.world.checksOn m.world.thread table₁).1 = .ok a := by
              exact congrArg Prod.fst run.symm
            refine .pure fun stale => absurd (honest.run value) ?_
            rcases stale with none | stale
            · cases none
            · cases stale
              simp

namespace Peer

/-- A peer is invalidated when its table is gone. -/
theorem invalidate_lawful (lost : ∀ peer, m.world.peers[p]? = some peer → m.Lost peer.table) :
    (invalidate p).Lawful m := by
  unfold invalidate
  refine .get ?_
  split
  · exact .pure trivial
  · rename_i peer hp
    split
    · exact .pure trivial
    · have gone : m.world.table? peer.table = none ∨ .foundDisposed peer.table ∈ m.past :=
        (lost peer hp).imp_left And.left
      have step := Moment.Step.trees (.invalidate hp gone)
      refine (Act.Meets.modify (Q := fun _ _ => True) step.goes rfl rfl trivial).next
        fun _ _ _ _ _ => ?_
      exact .tell _ trivial

/-- What a peer is asked to read it reads by deeds, unless the reading itself says that the table is
gone. -/
theorem query_lawful (h : m.Lived) {read : Inquiry (Except Unavailable α)}
    (honest : read.All (· ≠ .error .stalePeer)) : (query p read).Lawful m := by
  unfold query
  refine .get ?_
  split
  · exact .pure trivial
  · rename_i peer hp
    split
    · exact .pure trivial
    · have known := h.referred.known hp
      refine Act.Meets.next (Q := fun m' outcome =>
        flatten outcome = .error .stalePeer → m'.Lost peer.table) ?_ fun m₁ outcome goes _ lost => ?_
      · refine handOff_meets (?_) ?_
        · intro m' u _ failure stale
          cases stale
          cases failure
        · intro m' goes _
          have there := Nat.lt_of_lt_of_le known goes.tables_length
          refine (consult_meets honest there).mono ?_
          intro ended result _ _ lost m'' later stale
          refine later.lost (lost ?_)
          cases result with
          | none => exact .inl rfl
          | some r => exact .inr (congrArg some stale)
      · split
        · rename_i stale
          refine (invalidate_lawful ?_).next fun _ _ _ _ _ => .pure trivial
          intro peer' hp'
          obtain ⟨invalidated, hp₁, -⟩ := goes.keeps_peer hp
          rw [hp₁] at hp'
          cases hp'
          exact lost stale
        · exact .pure trivial

theorem isInvalidated_lawful : (isInvalidated p : Act μ Bool).Lawful m := by
  unfold isInvalidated
  refine .get ?_
  split <;> exact .pure trivial

theorem isValid_lawful (h : m.Lived) : (isValid p : Act μ Bool).Lawful m := by
  unfold isValid
  refine .get ?_
  split
  · exact .pure trivial
  · rename_i peer hp
    split
    · exact .pure trivial
    · split
      · rename_i gone
        refine (invalidate_lawful ?_).next fun _ _ _ _ _ => .pure trivial
        intro peer' hp'
        rw [hp] at hp'
        cases hp'
        exact .inl ⟨Option.isNone_iff_eq_none.1 gone, h.referred.known hp⟩
      · refine (query_lawful h (by simp [Reading.nothing, pure, Inquiry.All])).next
          fun _ r _ _ _ => ?_
        split
        · exact .pure trivial
        · exact .pure trivial
        · exact isInvalidated_lawful.next fun _ _ _ _ _ => .pure trivial

end Peer

end TableAccess
