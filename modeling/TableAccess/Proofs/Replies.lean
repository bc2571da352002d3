import Mathlib.Logic.Relation
import TableAccess.Duration
import TableAccess.Reply

/-!
# Replies between threads

Whoever holds the sender of a reply and whoever waits for the answer are two threads, which meet in
the slot they share. A sender that is sent gets there twice: it puts the answer into the slot, and then
it is lost as any sender is in the end. A receiver that waits gets there as often as it wakes, for no
reason, because there is something or because its time is over, and takes out what it finds. Whatever
the order in which all this happens: an answer that was put into the slot before the deadline is what
the receiver gets; it is told that there will be none only if the sender was lost unsent, and that its
time is over only if the sender had done nothing until then. But who wants to wait until an instant that
the clock cannot tell panics, whatever there is in the slot, and the receiver is lost.

## The model

* `Access` — what a sender does to the slot, one thing at a time; `Carrier.accesses` — what a task
  does that was given the sender.
* `Pair` — the two ends of a reply with the clock; `Pair.Step` — what can happen next.
* `Pair.Kept` — the invariant; `Pair.Truthful` — what the receiver can rely on.
* `Pair.Does` — what an operation does and answers; `Pair.Plays` — operations carried out one after the
  other, as `Exchange.perform` does it.
* `replies_are_delivered_once` — the main statement.
-/

namespace TableAccess.Reply

variable {α : Type}

/-! ### What is done to the slot -/

/-- What a sender does to the slot at once. -/
inductive Access (α : Type) where
  /-- It puts the answer there. -/
  | put (value : α)
  /-- It is lost. -/
  | lose

namespace Slot

/-- The slot after that. -/
def after : Slot α → Access α → Slot α
  | _, .put v => .ready v
  | s, .lose => s.loseSender

/-- What a receiver takes out. -/
def taken? : Slot α → Option (Except Failure α)
  | .pending => none
  | .ready v => some (.ok v)
  | .abandoned => some (.error .abandoned)

end Slot

/-- All that a task does to the slot which was given the sender. A sender that is sent is lost after
that, whether the task then panics or not. -/
def Carrier.accesses : Carrier α → List (Access α)
  | .send v | .sendThenFail v _ => [.put v, .lose]
  | .fail _ | .forget => [.lose]

/-- Done at once it fills the slot as the task does. -/
theorem Carrier.fill_eq (task : Carrier α) (s : Slot α) :
    task.fill s = task.accesses.foldl Slot.after s := by
  cases task <;> rfl

/-! ### One reply pair -/

/-- Where the sender is. -/
inductive Sender (α : Type) where
  /-- Somebody holds it. -/
  | held
  /-- A task holds it that has not begun to run. -/
  | given (task : Carrier α)
  /-- Another thread holds it, which will do this with it some time. -/
  | away (task : Carrier α)
  /-- It is used up: this is still to be done to the slot. -/
  | leaving (rest : List (Access α))

/-- Where the receiver is. -/
inductive Receiver (α : Type) where
  /-- Somebody holds it. -/
  | held
  /-- It waits. -/
  | waits (deadline : Instant)
  /-- It has got something, at some time. -/
  | ended (deadline now : Instant) (result : Except Failure α)
  /-- Who held it has panicked, who wanted to wait for a bound. -/
  | panicked (bound : Duration) (now : Instant)
  /-- It was dropped. -/
  | gone

/-- The receiver can still get something. -/
inductive Receiver.Open : Receiver α → Prop where
  | held : Receiver.held.Open
  | waits (deadline : Instant) : (Receiver.waits deadline).Open

/-- Whoever has waited did so until an instant that the clock can tell, and whoever has panicked
wanted to wait until one that it cannot tell. -/
def Receiver.ByClock : Receiver α → Prop
  | .waits deadline | .ended deadline _ _ => deadline / 1000000000 < Duration.clockSeconds
  | .panicked bound now => ¬bound.FitsClock now
  | .held | .gone => True

/-- The two ends of a reply, and the clock. -/
structure Pair (α : Type) where
  /-- What the ends share. -/
  slot : Slot α
  sender : Sender α
  receiver : Receiver α
  /-- What the clock shows. -/
  now : Instant
  /-- What the sender has done to the slot, and when. -/
  past : List (Instant × Access α)

namespace Pair

variable {p p' : Pair α}

/-- A fresh pair, made at some instant. -/
def start (now : Instant) : Pair α := ⟨.pending, .held, .held, now, []⟩

/-- What can happen next, to either end. -/
inductive Step : Pair α → Pair α → Prop where
  /-- Whoever holds the sender sends it or loses it. -/
  | uses {p : Pair α} (held : p.sender = .held) (task : Carrier α) :
    Step p { p with sender := .leaving task.accesses }
  /-- The sender is given to a task. -/
  | gives {p : Pair α} (held : p.sender = .held) (task : Carrier α) :
    Step p { p with sender := .given task }
  /-- The task runs. -/
  | runs {p : Pair α} {task : Carrier α} (given : p.sender = .given task) :
    Step p { p with sender := .leaving task.accesses }
  /-- The sender is handed to another thread. -/
  | sends {p : Pair α} (held : p.sender = .held) (task : Carrier α) :
    Step p { p with sender := .away task }
  /-- The other thread does what it will. -/
  | comes {p : Pair α} {task : Carrier α} (away : p.sender = .away task) :
    Step p { p with sender := .leaving task.accesses }
  /-- The task is dropped. -/
  | drops {p : Pair α} {task : Carrier α} (given : p.sender = .given task) :
    Step p { p with sender := .leaving [.lose] }
  /-- The sender gets at the slot. -/
  | accesses {p : Pair α} {access : Access α} {rest : List (Access α)}
      (leaving : p.sender = .leaving (access :: rest)) :
    Step p { p with
      slot := p.slot.after access
      sender := .leaving rest
      past := p.past ++ [(p.now, access)] }
  /-- Whoever holds the receiver begins to wait. -/
  | begins {p : Pair α} {bound : Duration} (held : p.receiver = .held)
      (fits : bound.FitsClock p.now) : Step p { p with receiver := .waits (p.now + bound.nanos) }
  /-- He panics, since the clock cannot tell until when. He has not looked at the slot. -/
  | overruns {p : Pair α} {bound : Duration} (held : p.receiver = .held)
      (late : ¬bound.FitsClock p.now) : Step p { p with receiver := .panicked bound p.now }
  /-- The receiver wakes and takes out what it finds. -/
  | takes {p : Pair α} {deadline : Nat} {result : Except Failure α}
      (waits : p.receiver = .waits deadline) (there : p.slot.taken? = some result) :
    Step p { p with slot := .pending, receiver := .ended deadline p.now result }
  /-- It wakes when its time is over, and there is nothing. -/
  | givesUp {p : Pair α} {deadline : Nat} (waits : p.receiver = .waits deadline)
      (late : deadline ≤ p.now) (nothing : p.slot.taken? = none) :
    Step p { p with receiver := .ended deadline p.now (.error .timedOut) }
  /-- The receiver is dropped. -/
  | lets {p : Pair α} (held : p.receiver = .held) : Step p { p with receiver := .gone }
  /-- Time goes by. -/
  | passes {p : Pair α} {now : Instant} (later : p.now ≤ now) : Step p { p with now := now }

/-- Any number of steps, one after the other. -/
def Reaches : Pair α → Pair α → Prop := Relation.ReflTransGen Step

theorem Reaches.refl (p : Pair α) : p.Reaches p := Relation.ReflTransGen.refl

theorem Step.reaches (h : p.Step p') : p.Reaches p' := Relation.ReflTransGen.single h

theorem Reaches.trans {p'' : Pair α} (h : p.Reaches p') (h' : p'.Reaches p'') : p.Reaches p'' :=
  Relation.ReflTransGen.trans h h'

/-- What every step keeps holds at every later time. -/
theorem Reaches.keeps {P : Pair α → Prop} (later : p.Reaches p') (h : P p)
    (step : ∀ {p p' : Pair α}, p.Step p' → P p → P p') : P p' := by
  induction later with
  | refl => exact h
  | tail _ last ih => exact step last ih

/-! ### The invariant -/

/-- What a sender has done so far, by where it is. -/
inductive Stage : Sender α → List (Instant × Access α) → Prop where
  | held : Stage .held []
  | given (task : Carrier α) : Stage (.given task) []
  | away (task : Carrier α) : Stage (.away task) []
  /-- It is about to be sent, -/
  | sends (v : α) : Stage (.leaving [.put v, .lose]) []
  /-- or lost unsent. -/
  | loses : Stage (.leaving [.lose]) []
  /-- It was sent, and is not lost yet, -/
  | sent (t : Nat) (v : α) : Stage (.leaving [.lose]) [(t, .put v)]
  /-- or it is. -/
  | done (t t' : Nat) (v : α) : Stage (.leaving []) [(t, .put v), (t', .lose)]
  /-- It was lost unsent. -/
  | lost (t : Nat) : Stage (.leaving []) [(t, .lose)]

theorem Stage.of_carrier (task : Carrier α) : Stage (.leaving task.accesses) [] := by
  cases task with
  | send v | sendThenFail v => exact .sends v
  | fail | forget => exact .loses

section Stage

variable {sender : Sender α} {task : Carrier α} {past : List (Instant × Access α)}

theorem Stage.past_of_held (h : Stage .held past) : past = [] := by
  cases h
  rfl

theorem Stage.past_of_given (h : Stage (.given task) past) : past = [] := by
  cases h
  rfl

theorem Stage.past_of_away (h : Stage (.away task) past) : past = [] := by
  cases h
  rfl

/-- A sender has done nothing, or it was sent, or it was lost unsent. -/
theorem Stage.shape (h : Stage sender past) :
    past = [] ∨ (∃ t v rest, past = (t, .put v) :: rest) ∨ ∃ t, past = [(t, .lose)] := by
  cases h with
  | held | given | away | sends | loses => exact .inl rfl
  | sent t v | done t t' v => exact .inr (.inl ⟨t, v, _, rfl⟩)
  | lost t => exact .inr (.inr ⟨t, rfl⟩)

/-- An answer that was sent was the first thing that the sender did. -/
theorem Stage.past_of_put (h : Stage sender past) {t : Nat} {v : α} (put : (t, .put v) ∈ past) :
    ∃ rest, past = (t, .put v) :: rest := by
  cases h with
  | held | given | away | sends | loses => cases put
  | sent t' v' | done t' t'' v' =>
    simp only [List.mem_cons, Prod.mk.injEq, reduceCtorEq, and_false, List.not_mem_nil, or_false,
      Access.put.injEq] at put
    obtain ⟨rfl, rfl⟩ := put
    exact ⟨_, rfl⟩
  | lost t' => simp at put

end Stage

/-- What the first thing that a sender did has made of the slot. -/
def fate : List (Instant × Access α) → Slot α
  | [] => .pending
  | (_, .put v) :: _ => .ready v
  | (_, .lose) :: _ => .abandoned

/-- What a receiver got, in view of what the sender has done by now. -/
inductive Verdict (deadline now : Nat) : Except Failure α → List (Instant × Access α) → Prop where
  /-- The answer that was put into the slot. -/
  | answer {t : Nat} {v : α} {rest : List (Instant × Access α)} (before : t ≤ now) :
    Verdict deadline now (.ok v) ((t, .put v) :: rest)
  /-- The news that the sender was lost. -/
  | abandoned {t : Nat} (before : t ≤ now) :
    Verdict deadline now (.error .abandoned) [(t, .lose)]
  /-- Its time was over, and the sender had done nothing. -/
  | timedOut {past : List (Instant × Access α)} (late : deadline ≤ now) (later : ∀ e ∈ past, now ≤ e.1) :
    Verdict deadline now (.error .timedOut) past

/-- What holds at every time. -/
structure Kept (p : Pair α) : Prop where
  stage : Stage p.sender p.past
  /-- Nothing was done in the future. -/
  times : ∀ e ∈ p.past, e.1 ≤ p.now
  /-- As long as the receiver can get something, the slot holds what was done first. -/
  slot : p.receiver.Open → p.slot = fate p.past
  ended : ∀ {deadline now : Nat} {result : Except Failure α},
    p.receiver = .ended deadline now result → now ≤ p.now ∧ Verdict deadline now result p.past
  clock : p.receiver.ByClock

theorem kept_start (now : Instant) : (start now : Pair α).Kept :=
  ⟨.held, nofun, fun _ => rfl, nofun, trivial⟩

namespace Kept

/-- The sender goes on without getting at the slot. -/
theorem moves (h : p.Kept) {sender : Sender α} (stage : Stage sender p.past) :
    Kept { p with sender := sender } := { h with stage := stage }

/-- What the receiver got before is not touched by what is done now. -/
theorem ended_append (h : p.Kept) (stage : ∀ t, Stage p.sender [(t, .lose)] → False)
    (access : Access α) {deadline now : Nat} {result : Except Failure α}
    (got : p.receiver = .ended deadline now result) :
    now ≤ p.now ∧ Verdict deadline now result (p.past ++ [(p.now, access)]) := by
  obtain ⟨before, verdict⟩ := h.ended got
  have alive := h.stage
  refine ⟨before, ?_⟩
  generalize p.past = past at verdict alive
  cases verdict with
  | answer put => exact .answer put
  | abandoned lost => exact (stage _ alive).elim
  | timedOut late later =>
    refine .timedOut late fun e mem => ?_
    rcases List.mem_append.1 mem with old | new
    · exact later e old
    · rw [List.mem_singleton.1 new]
      exact before

/-- The sender gets at the slot: an answer that is there stays. -/
theorem accesses (h : p.Kept) {access : Access α} {rest : List (Access α)}
    (leaving : p.sender = .leaving (access :: rest)) :
    Kept { p with
      slot := p.slot.after access
      sender := .leaving rest
      past := p.past ++ [(p.now, access)] } := by
  have alive : ∀ t, Stage p.sender [(t, .lose)] → False := by
    intro t lost
    rw [leaving] at lost
    cases lost
  have next : Stage (.leaving rest) (p.past ++ [(p.now, access)]) ∧
      (fate p.past).after access = fate (p.past ++ [(p.now, access)]) := by
    have stage := h.stage
    rw [leaving] at stage
    generalize p.past = past at stage
    cases stage with
    | sends v => exact ⟨.sent _ v, rfl⟩
    | loses => exact ⟨.lost _, rfl⟩
    | sent t v => exact ⟨.done t _ v, rfl⟩
  refine ⟨next.1, fun e mem => ?_, fun waits => ?_, h.ended_append alive access, h.clock⟩
  · rcases List.mem_append.1 mem with old | new
    · exact h.times e old
    · exact Nat.le_of_eq (congrArg Prod.fst (List.mem_singleton.1 new))
  · show p.slot.after access = _
    rw [h.slot waits, next.2]

/-- The receiver takes out what it finds. -/
theorem takes (h : p.Kept) {deadline : Nat} {result : Except Failure α}
    (waits : p.receiver = .waits deadline) (there : p.slot.taken? = some result) :
    Kept { p with slot := .pending, receiver := .ended deadline p.now result } := by
  have verdict : Verdict deadline p.now result p.past := by
    have times := h.times
    rw [h.slot (waits ▸ .waits deadline)] at there
    rcases h.stage.shape with nothing | ⟨t, v, rest, put⟩ | ⟨t, lost⟩
    · rw [nothing] at there
      cases there
    · rw [put] at there times ⊢
      cases there
      exact .answer (times _ List.mem_cons_self)
    · rw [lost] at there times ⊢
      cases there
      exact .abandoned (times _ List.mem_cons_self)
  have clock := h.clock
  rw [waits] at clock
  refine { h with slot := nofun, ended := ?_, clock := clock }
  rintro _ _ _ ⟨⟩
  exact ⟨Nat.le_refl _, verdict⟩

/-- The receiver finds nothing, and its time is over. -/
theorem givesUp (h : p.Kept) {deadline : Nat} (waits : p.receiver = .waits deadline)
    (late : deadline ≤ p.now) (nothing : p.slot.taken? = none) :
    Kept { p with receiver := .ended deadline p.now (.error .timedOut) } := by
  have idle : p.past = [] := by
    rw [h.slot (waits ▸ .waits deadline)] at nothing
    rcases h.stage.shape with idle | ⟨t, v, rest, put⟩ | ⟨t, lost⟩
    · exact idle
    · rw [put] at nothing
      cases nothing
    · rw [lost] at nothing
      cases nothing
  have clock := h.clock
  rw [waits] at clock
  refine { h with slot := nofun, ended := ?_, clock := clock }
  rintro _ _ _ ⟨⟩
  refine ⟨Nat.le_refl _, .timedOut late fun e mem => ?_⟩
  rw [idle] at mem
  cases mem

/-- Every step keeps it. -/
theorem step (h : p.Kept) (step : p.Step p') : p'.Kept := by
  have stage := h.stage
  cases step with
  | uses held task =>
    rw [held] at stage
    exact h.moves (stage.past_of_held ▸ .of_carrier task)
  | gives held task =>
    rw [held] at stage
    exact h.moves (stage.past_of_held ▸ .given task)
  | runs given =>
    rw [given] at stage
    exact h.moves (stage.past_of_given ▸ .of_carrier _)
  | sends held task =>
    rw [held] at stage
    exact h.moves (stage.past_of_held ▸ .away task)
  | comes away =>
    rw [away] at stage
    exact h.moves (stage.past_of_away ▸ .of_carrier _)
  | drops given =>
    rw [given] at stage
    exact h.moves (stage.past_of_given ▸ .loses)
  | accesses leaving => exact h.accesses leaving
  | begins held fits =>
    exact { h with slot := fun _ => h.slot (held ▸ .held), ended := nofun, clock := fits }
  | overruns held late => exact { h with slot := nofun, ended := nofun, clock := late }
  | lets => exact { h with slot := nofun, ended := nofun, clock := trivial }
  | takes waits there => exact h.takes waits there
  | givesUp waits late nothing => exact h.givesUp waits late nothing
  | passes later =>
    refine { h with times := fun e mem => Nat.le_trans (h.times e mem) later, ended := ?_ }
    intro deadline now result got
    obtain ⟨before, verdict⟩ := h.ended got
    exact ⟨Nat.le_trans before later, verdict⟩

end Kept

theorem Reaches.kept {now : Instant} (h : (start now : Pair α).Reaches p) : p.Kept :=
  h.keeps (kept_start now) fun step kept => kept.step step

/-! ### What the receiver can rely on -/

/-- What the receiver of a pair can rely on. -/
structure Truthful (p : Pair α) : Prop where
  /-- An answer that was sent before the deadline is what it gets. -/
  answered : ∀ {deadline now t : Nat} {result : Except Failure α} {v : α},
    p.receiver = .ended deadline now result → (t, .put v) ∈ p.past → t < deadline → result = .ok v
  /-- If the sender was lost unsent before the deadline it is told so. -/
  abandoned : ∀ {deadline now t : Nat} {result : Except Failure α},
    p.receiver = .ended deadline now result → (t, .lose) ∈ p.past → t < deadline →
    (∀ t' v, (t', .put v) ∉ p.past) → result = .error .abandoned
  /-- It is told that its time is over only if it is, and if the sender had done nothing until then. -/
  timedOut : ∀ {deadline now : Nat}, p.receiver = .ended deadline now (.error .timedOut) →
    deadline ≤ now ∧ ∀ e ∈ p.past, now ≤ e.1
  /-- Every answer that it gets was sent, -/
  sent : ∀ {deadline now : Nat} {v : α}, p.receiver = .ended deadline now (.ok v) →
    ∃ t ≤ now, (t, .put v) ∈ p.past
  /-- and it is told that there will be none only if the sender was lost unsent. -/
  lost : ∀ {deadline now : Nat}, p.receiver = .ended deadline now (.error .abandoned) →
    (∃ t ≤ now, (t, .lose) ∈ p.past) ∧ ∀ t v, (t, .put v) ∉ p.past
  /-- It got this once and for all. -/
  final : ∀ {deadline now : Nat} {result : Except Failure α} {p' : Pair α},
    p.receiver = .ended deadline now result → p.Reaches p' → p'.receiver = p.receiver
  /-- Whoever waits does so until an instant that the clock can tell, -/
  tells : ∀ {deadline : Instant}, (p.receiver = .waits deadline ∨
      ∃ now result, p.receiver = .ended deadline now result) →
    deadline / 1000000000 < Duration.clockSeconds
  /-- and whoever has panicked wanted to wait until one that it cannot tell. Nobody gets anything any
  more, whatever was sent. -/
  panicked : ∀ {bound : Duration} {now : Instant}, p.receiver = .panicked bound now →
    ¬bound.FitsClock now ∧ ∀ {p' : Pair α}, p.Reaches p' → p'.receiver = p.receiver
  /-- Until then there is something to receive once the sender was sent or lost, and not before, -/
  ready : p.receiver.Open → (p.slot.isReady = true ↔ p.past ≠ [])
  /-- and an answer is not replaced. -/
  kept : ∀ {t : Nat} {v : α}, p.receiver.Open → (t, .put v) ∈ p.past → p.slot = .ready v
  /-- If there is something to receive, there always will be until it is received, -/
  stays : ∀ {p' : Pair α}, p.receiver.Open → p.slot.isReady = true → p.Reaches p' →
    p'.receiver.Open → p'.slot.isReady = true
  /-- and whoever waits for it, however short, is not told that the time is over. -/
  prompt : ∀ {p' : Pair α} {deadline now : Nat}, p.receiver.Open → p.slot.isReady = true →
    p.Reaches p' → p'.receiver ≠ .ended deadline now (.error .timedOut)
  /-- If there is something, or the time is over, the receiver gets its result as soon as it wakes. -/
  returns : ∀ {deadline : Nat}, p.receiver = .waits deadline →
    (p.slot.isReady = true ∨ deadline ≤ p.now) →
    ∃ p' result, p.Step p' ∧ p'.receiver = .ended deadline p.now result

theorem Step.past (h : p.Step p') : p.past <+: p'.past := by
  cases h with
  | accesses => exact List.prefix_append _ _
  | _ => exact List.prefix_rfl

/-- What the sender has done stays done. -/
theorem Reaches.past (h : p.Reaches p') : p.past <+: p'.past :=
  h.keeps (P := fun p' => p.past <+: p'.past) List.prefix_rfl
    fun step before => before.trans step.past

/-- A receiver that got something does not get anything else. -/
theorem Step.ended (h : p.Step p') {deadline now : Nat} {result : Except Failure α}
    (ended : p.receiver = .ended deadline now result) : p'.receiver = .ended deadline now result := by
  cases h with
  | begins held | overruns held | lets held => cases held.symm.trans ended
  | takes waits | givesUp waits => cases waits.symm.trans ended
  | _ => exact ended

/-- Nor does one whose holder has panicked. -/
theorem Step.panicked (h : p.Step p') {bound : Duration} {now : Instant}
    (panicked : p.receiver = .panicked bound now) : p'.receiver = .panicked bound now := by
  cases h with
  | begins held | overruns held | lets held => cases held.symm.trans panicked
  | takes waits | givesUp waits => cases waits.symm.trans panicked
  | _ => exact panicked

theorem taken?_eq_none_iff {s : Slot α} : s.taken? = none ↔ s.isReady = false := by
  cases s <;> simp [Slot.taken?, Slot.isReady]

theorem isReady_fate_iff {past : List (Instant × Access α)} :
    (fate past).isReady = true ↔ past ≠ [] := by
  match past with
  | [] => simp [fate, Slot.isReady]
  | (_, .put v) :: _ => simp [fate, Slot.isReady]
  | (_, .lose) :: _ => simp [fate, Slot.isReady]

namespace Kept

theorem ready (h : p.Kept) (waits : p.receiver.Open) : p.slot.isReady = true ↔ p.past ≠ [] := by
  rw [h.slot waits, isReady_fate_iff]

/-- Once the sender has done something nobody is told that his time is over. -/
theorem prompt (h : p.Kept) (waits : p.receiver.Open) (there : p.past ≠ []) (later : p.Reaches p') :
    ∀ deadline now, p'.receiver ≠ .ended deadline now (.error .timedOut) := by
  refine (later.keeps (P := fun p' => p'.Kept ∧ p'.past ≠ [] ∧
    ∀ deadline now, p'.receiver ≠ .ended deadline now (.error .timedOut)) ⟨h, there, ?_⟩ ?_).2.2
  · rintro deadline now ended
    rw [ended] at waits
    cases waits
  · rintro p p' step ⟨kept, there, inTime⟩
    have there' : p'.past ≠ [] := fun none => there (List.prefix_nil.1 (none ▸ step.past))
    refine ⟨kept.step step, there', ?_⟩
    cases step with
    | begins | overruns | lets => exact nofun
    | @takes deadline result waits found =>
      rintro _ _ ⟨⟩
      cases slot : p.slot <;> rw [slot] at found <;> cases found
    | givesUp waits late nothing =>
      have ready := (kept.ready (waits ▸ .waits _)).2 there
      rw [taken?_eq_none_iff.1 nothing] at ready
      cases ready
    | _ => exact inTime

theorem truthful (h : p.Kept) : p.Truthful where
  answered {deadline now t result v} got put early := by
    obtain ⟨rest, past⟩ := h.stage.past_of_put put
    obtain ⟨-, verdict⟩ := h.ended got
    rw [past] at verdict
    cases verdict with
    | answer => rfl
    | timedOut late later =>
      have after : now ≤ t := later _ List.mem_cons_self
      omega
  abandoned {deadline now t result} got lost early unsent := by
    obtain ⟨-, verdict⟩ := h.ended got
    generalize p.past = past at verdict lost unsent
    cases verdict with
    | answer => exact absurd List.mem_cons_self (unsent _ _)
    | abandoned => rfl
    | timedOut late later =>
      have after : now ≤ t := later _ lost
      omega
  timedOut got := by
    obtain ⟨-, verdict⟩ := h.ended got
    cases verdict with
    | timedOut late later => exact ⟨late, later⟩
  sent got := by
    obtain ⟨-, verdict⟩ := h.ended got
    generalize p.past = past at verdict
    cases verdict with
    | answer before => exact ⟨_, before, List.mem_cons_self⟩
  lost got := by
    obtain ⟨-, verdict⟩ := h.ended got
    generalize p.past = past at verdict
    cases verdict with
    | abandoned before => exact ⟨⟨_, before, List.mem_cons_self⟩, by simp⟩
  final got later := by
    rw [got]
    exact later.keeps (P := fun p' => p'.receiver = _) got fun step got => step.ended got
  tells := by
    have clock := h.clock
    rintro deadline (waits | ⟨now, result, got⟩)
    · rwa [waits] at clock
    · rwa [got] at clock
  panicked {bound now} panicked := by
    have clock := h.clock
    rw [panicked] at clock ⊢
    exact ⟨clock, fun later => later.keeps (P := fun p' => p'.receiver = _) panicked
      fun step panicked => step.panicked panicked⟩
  ready := h.ready
  kept waits put := by
    obtain ⟨rest, past⟩ := h.stage.past_of_put put
    rw [h.slot waits, past]
    rfl
  stays {p'} waits ready later waits' := by
    have kept : p'.Kept := later.keeps h fun step kept => kept.step step
    have there := (h.ready waits).1 ready
    exact (kept.ready waits').2 fun none => there (List.prefix_nil.1 (none ▸ later.past))
  prompt waits ready later := h.prompt waits ((h.ready waits).1 ready) later _ _
  returns {deadline} waits reason := by
    cases found : p.slot.taken? with
    | some result => exact ⟨_, result, .takes waits found, rfl⟩
    | none =>
      have late := reason.resolve_left (by simp [taken?_eq_none_iff.1 found])
      exact ⟨_, _, .givesUp waits late found, rfl⟩

end Kept

/-! ### Operations one after the other -/

/-- All that is left of what a sender does to the slot is done. -/
theorem reaches_left (p : Pair α) {rest : List (Access α)} (leaving : p.sender = .leaving rest) :
    p.Reaches { p with
      slot := rest.foldl Slot.after p.slot
      sender := .leaving []
      past := p.past ++ rest.map (p.now, ·) } := by
  induction rest generalizing p with
  | nil =>
    rw [← leaving, List.map_nil, List.append_nil]
    exact .refl p
  | cons access rest ih =>
    have rests := ih { p with
      slot := p.slot.after access
      sender := .leaving rest
      past := p.past ++ [(p.now, access)] } rfl
    rw [List.append_assoc] at rests
    exact (Step.accesses leaving).reaches.trans rests

/-- A task does all that it does to the slot. -/
theorem reaches_filled (task : Carrier α) (h : p.Step { p with sender := .leaving task.accesses }) :
    p.Reaches { p with
      slot := task.fill p.slot
      sender := .leaving []
      past := p.past ++ task.accesses.map (p.now, ·) } := by
  rw [task.fill_eq]
  exact h.reaches.trans (reaches_left { p with sender := .leaving task.accesses } rfl)

/-- What an operation needs of a pair. -/
def Offers (p : Pair α) : Operation α → Prop
  | .isReady | .receive _ | .dropReceiver => p.receiver = .held
  | .send _ | .sendLater _ _ | .dropSender | .give _ => p.sender = .held
  | .execute | .dropTask => ∃ task, p.sender = .given task
  | .unknown => False

/-- What an operation does with a pair, and what it answers. -/
inductive Does (p p' : Pair α) : Operation α → Outcome α → Prop where
  | asks (held : p.receiver = .held) (same : p' = p) : Does p p' .isReady (.flag p.slot.isReady)
  | sends {v : α} (held : p.sender = .held)
      (did : p'.past = p.past ++ [(p.now, .put v), (p.now, .lose)]) : Does p p' (.send v) .done
  | sendsLater {v : α} {ms : Nat} (held : p.sender = .held) (away : p'.sender = .away (.send v)) :
    Does p p' (.sendLater v ms) .done
  | loses (held : p.sender = .held) (did : p'.past = p.past ++ [(p.now, .lose)]) :
    Does p p' .dropSender .done
  | gives {task : Carrier α} (held : p.sender = .held) (given : p'.sender = .given task) :
    Does p p' (.give task) .done
  | runs {task : Carrier α} (given : p.sender = .given task)
      (did : p'.past = p.past ++ task.accesses.map (p.now, ·)) (ends : task.panic? = none) :
    Does p p' .execute .completed
  | panics {task : Carrier α} {panic : Panic} (given : p.sender = .given task)
      (did : p'.past = p.past ++ task.accesses.map (p.now, ·)) (ends : task.panic? = some panic) :
    Does p p' .execute (.panicked panic)
  | drops {task : Carrier α} (given : p.sender = .given task)
      (did : p'.past = p.past ++ [(p.now, .lose)]) : Does p p' .dropTask .done
  /-- Nobody but another thread does anything while the receiver waits. -/
  | receives {ms now : Nat} {result : Except Failure α} (held : p.receiver = .held)
      (fits : (Duration.ofMillis ms).FitsClock p.now)
      (got : p'.receiver = .ended (p.now + (Duration.ofMillis ms).nanos) now result)
      (alone : (∀ task, p.sender ≠ .away task) → p'.past = p.past) :
    Does p p' (.receive ms) (.received result)
  /-- With a bound that the clock cannot tell nothing is done at all. -/
  | overruns {ms : Nat} (held : p.receiver = .held) (late : ¬(Duration.ofMillis ms).FitsClock p.now)
      (lost : p' = { p with receiver := .panicked (.ofMillis ms) p.now }) :
    Does p p' (.receive ms) (.panicked deadlineOverflow)
  | lets (held : p.receiver = .held) (gone : p'.receiver = .gone) : Does p p' .dropReceiver .done
  /-- What it needs is not there. -/
  | lacks {op : Operation α} (lacks : ¬p.Offers op) (same : p' = p) : Does p p' op .gone

/-- A pair is where an exchange says that it is. -/
structure StandsFor (p : Pair α) (x : Exchange α) : Prop where
  receiver : p.receiver = .held ↔ x.hasReceiver = true
  slot : x.hasReceiver = true → p.slot = x.slot
  sender : p.sender = .held ↔ x.hasSender = true
  task : ∀ task, p.sender = .given task ↔ x.task = some task
  /-- An answer that comes after a while is with another thread until then. -/
  coming : ∀ {delay : Nat} {v : α}, x.hasReceiver = true → x.coming = some (delay, v) →
    p.sender = .away (.send v)
  clock : x.hasReceiver = true → p.now = x.clock

theorem standsFor_fresh (now : Instant) : (start now : Pair α).StandsFor (.freshAt now) :=
  ⟨by simp [start, Exchange.freshAt], fun _ => rfl, by simp [start, Exchange.freshAt],
    by simp [start, Exchange.freshAt], nofun, fun _ => rfl⟩

namespace StandsFor

variable {x : Exchange α}

/-- Whoever holds the sender has it alone. -/
theorem only (h : p.StandsFor x) (held : p.sender = .held) :
    x.task = none ∧ (x.hasReceiver = true → x.coming = none) := by
  refine ⟨?_, fun waits => ?_⟩
  · cases given : x.task with
    | none => rfl
    | some task => cases held.symm.trans ((h.task task).2 given)
  · cases coming : x.coming with
    | none => rfl
    | some c => cases held.symm.trans (h.coming waits coming)

/-- Whoever holds the sender does something with it. -/
theorem used (h : p.StandsFor x) (held : p.sender = .held) (task : Carrier α) :
    ∃ p', p.Reaches p' ∧ p'.past = p.past ++ task.accesses.map (p.now, ·) ∧
      p'.StandsFor { x with slot := task.fill x.slot, hasSender := false } := by
  obtain ⟨nowhere, alone⟩ := h.only held
  refine ⟨_, reaches_filled _ (.uses held task), rfl, h.receiver, fun waits => ?_, ?_, ?_, fun waits => ?_,
    h.clock⟩
  · exact congrArg task.fill (h.slot waits)
  · simp
  · simp [nowhere]
  · simp [alone waits]

/-- A task that has the sender does something with it, or is dropped. -/
theorem taken (h : p.StandsFor x) {task : Carrier α} (does : Carrier α) (given : p.sender = .given task)
    (step : p.Step { p with sender := .leaving does.accesses }) :
    ∃ p', p.Reaches p' ∧ p'.past = p.past ++ does.accesses.map (p.now, ·) ∧
      p'.StandsFor { x with slot := does.fill x.slot, task := none } := by
  have away : ¬x.hasSender = true := fun held => by cases (h.sender.2 held).symm.trans given
  refine ⟨_, reaches_filled does step, rfl, h.receiver, fun waits => ?_, ?_, ?_, fun waits coming => ?_,
    h.clock⟩
  · exact congrArg does.fill (h.slot waits)
  · simp [away]
  · simp
  · cases given.symm.trans (h.coming waits coming)

/-- The receiver waits, and gets what the exchange says. -/
theorem waited (h : p.StandsFor x) (held : p.receiver = .held) {ms : Nat}
    (fits : (Duration.ofMillis ms).FitsClock p.now) : ∃ p', p.Reaches p' ∧
      p'.StandsFor { x with hasReceiver := false } ∧ p.Does p' (.receive ms) (.received (x.await ms)) := by
  have waits := h.receiver.1 held
  have same := h.slot waits
  let deadline := p.now + (Duration.ofMillis ms).nanos
  let begun : Pair α := { p with receiver := .waits deadline }
  have begins : p.Reaches begun := (Step.begins held fits).reaches
  -- what is with whom is the same, unless it was with another thread
  have stands : ∀ p' : Pair α, p'.receiver ≠ .held → p'.sender = p.sender →
      p'.StandsFor { x with hasReceiver := false } := fun p' got sender =>
    ⟨by simp [got], nofun, sender ▸ h.sender, sender ▸ h.task, nofun, nofun⟩
  cases found : x.slot.taken? with
  | some result =>
    have there : begun.slot.taken? = some result := same ▸ found
    have answer : x.await ms = result := by
      unfold Exchange.await
      cases slot : x.slot <;> rw [slot] at found <;> cases found <;> rfl
    exact ⟨_, begins.trans (Step.takes rfl there).reaches, stands _ nofun rfl,
      .receives held fits (by rw [answer]) fun _ => rfl⟩
  | none =>
    have pending : x.slot = .pending := by
      cases slot : x.slot <;> rw [slot] at found <;> first | rfl | cases found
    by_cases comes : ∃ delay v, x.coming = some (delay, v) ∧ delay ≤ ms
    · obtain ⟨delay, v, coming, early⟩ := comes
      have away := h.coming waits coming
      have answer : x.await ms = .ok v := by simp [Exchange.await, pending, coming, early]
      -- the other thread sends before the receiver wakes
      have sends := reaches_filled (p := begun) (.send v) (.comes away)
      refine ⟨_, (begins.trans sends).trans (Step.takes rfl rfl).reaches,
        ⟨by simp, nofun, ?_, fun task => ?_, nofun, nofun⟩,
        .receives held fits (by rw [answer]) fun alone => absurd away (alone _)⟩
      · simp [← h.sender, away]
      · simp [← h.task, away]
    · have answer : x.await ms = .error .timedOut := by
        unfold Exchange.await
        rw [pending]
        cases coming : x.coming with
        | none => rfl
        | some c =>
          obtain ⟨delay, v⟩ := c
          exact if_neg fun early => comes ⟨delay, v, coming, early⟩
      let later : Pair α := { begun with now := deadline }
      have passes : begun.Step later := .passes (Nat.le_add_right _ _)
      have nothing : later.slot.taken? = none := same ▸ found
      exact ⟨_, begins.trans (passes.reaches.trans (Step.givesUp rfl (Nat.le_refl _) nothing).reaches),
        stands _ nofun rfl, .receives held fits (by rw [answer]) fun _ => rfl⟩

/-- Who wants to wait until an instant that the clock cannot tell panics. -/
theorem overran (h : p.StandsFor x) (held : p.receiver = .held) {ms : Nat}
    (late : ¬(Duration.ofMillis ms).FitsClock p.now) : ∃ p', p.Reaches p' ∧
      p'.StandsFor { x with hasReceiver := false } ∧
      p.Does p' (.receive ms) (.panicked deadlineOverflow) :=
  ⟨_, (Step.overruns held late).reaches, ⟨by simp, nofun, h.sender, h.task, nofun, nofun⟩,
    .overruns held late rfl⟩

/-- Every operation is some steps of the pair, and answers what is so there. -/
theorem perform (h : p.StandsFor x) (op : Operation α) :
    ∃ p', p.Reaches p' ∧ p'.StandsFor (x.perform op).2 ∧ p.Does p' op (x.perform op).1 := by
  -- what is not there is not used
  have gone (lacks : ¬p.Offers op) : ∃ p', p.Reaches p' ∧ p'.StandsFor x ∧ p.Does p' op .gone :=
    ⟨p, .refl p, h, .lacks lacks rfl⟩
  cases op with
  | isReady =>
    dsimp only [Exchange.perform]
    split
    · rename_i held
      exact ⟨p, .refl p, h, h.slot held ▸ .asks (h.receiver.2 held) rfl⟩
    · exact gone (mt h.receiver.1 ‹_›)
  | send v =>
    dsimp only [Exchange.perform]
    split
    · have held := h.sender.2 ‹_›
      obtain ⟨p', reaches, did, stands⟩ := h.used held (.send v)
      exact ⟨p', reaches, stands, .sends held did⟩
    · exact gone (mt h.sender.1 ‹_›)
  | dropSender =>
    dsimp only [Exchange.perform]
    split
    · have held := h.sender.2 ‹_›
      obtain ⟨p', reaches, did, stands⟩ := h.used held .forget
      exact ⟨p', reaches, stands, .loses held did⟩
    · exact gone (mt h.sender.1 ‹_›)
  | sendLater v ms =>
    dsimp only [Exchange.perform]
    split
    · have held := h.sender.2 ‹_›
      refine ⟨_, (Step.sends held (.send v)).reaches, ⟨h.receiver, h.slot, by simp, ?_, ?_, h.clock⟩,
        .sendsLater held rfl⟩
      · simp [(h.only held).1]
      · rintro _ _ - ⟨⟩
        rfl
    · exact gone (mt h.sender.1 ‹_›)
  | give task =>
    dsimp only [Exchange.perform]
    split
    · have held := h.sender.2 ‹_›
      refine ⟨_, (Step.gives held task).reaches,
        ⟨h.receiver, h.slot, by simp, by simp, ?_, h.clock⟩, .gives held rfl⟩
      intro delay v waits
      simp [(h.only held).2 waits]
    · exact gone (mt h.sender.1 ‹_›)
  | execute =>
    dsimp only [Exchange.perform]
    cases at_ : x.task with
    | none => exact gone (by simp [Offers, h.task, at_])
    | some task =>
      have given := (h.task task).2 at_
      obtain ⟨p', reaches, did, stands⟩ := h.taken task given (.runs given)
      dsimp only
      split
      · exact ⟨p', reaches, stands, .panics given did ‹_›⟩
      · exact ⟨p', reaches, stands, .runs given did ‹_›⟩
  | dropTask =>
    dsimp only [Exchange.perform]
    cases at_ : x.task with
    | none => exact gone (by simp [Offers, h.task, at_])
    | some task =>
      have given := (h.task task).2 at_
      obtain ⟨p', reaches, did, stands⟩ := h.taken .forget given (.drops given)
      exact ⟨p', reaches, stands, .drops given did⟩
  | receive ms =>
    dsimp only [Exchange.perform]
    split
    · rename_i there
      have held := h.receiver.2 there
      have clock := h.clock there
      by_cases fits : (Duration.ofMillis ms).FitsClock p.now
      · have waits : x.receive ms = .received (x.await ms) := if_pos (clock ▸ fits)
        rw [waits]
        exact h.waited held fits
      · have panics : x.receive ms = .panicked deadlineOverflow := if_neg (clock ▸ fits)
        rw [panics]
        exact h.overran held fits
    · exact gone (mt h.receiver.1 ‹_›)
  | dropReceiver =>
    dsimp only [Exchange.perform]
    split
    · have held := h.receiver.2 ‹_›
      exact ⟨_, (Step.lets held).reaches, { h with
        receiver := by simp, slot := nofun, coming := nofun, clock := nofun },
        .lets held rfl⟩
    · exact gone (mt h.receiver.1 ‹_›)
  | unknown => exact gone id

end StandsFor

/-- A pair with which operations are carried out one after the other, and what they answer. -/
inductive Plays : Pair α → List (Operation α) → List (Outcome α) → Prop where
  | nil (p : Pair α) : Plays p [] []
  | cons {p p' : Pair α} {op : Operation α} {out : Outcome α} {ops : List (Operation α)}
      {outs : List (Outcome α)} (reaches : p.Reaches p') (does : p.Does p' op out)
      (rest : Plays p' ops outs) : Plays p (op :: ops) (out :: outs)

/-- Whatever is done with an exchange is done with a pair. -/
theorem StandsFor.plays {x : Exchange α} (h : p.StandsFor x) (ops : List (Operation α)) :
    p.Plays ops (x.performAll ops) := by
  induction ops generalizing p x with
  | nil => exact .nil p
  | cons op rest ih =>
    obtain ⟨p', reaches, stands, does⟩ := h.perform op
    exact .cons reaches does (ih stands)

end Pair

/-- **A reply is delivered exactly once, and its absence is reported truthfully**, to whoever waits until
an instant that the clock can tell. Let both ends of a reply do what they do, in any order. Whoever has
waited for the answer got it if it was sent before the deadline, also by a task that panicked after
that; was told that there is none if the sender was lost unsent before it, in whatever way; and was told
that the time is over only if until then the sender was neither sent nor lost. There is something to
receive from the moment on in which it is sent or lost; as long as it was not received it stays, and
whoever waits for it gets it without any delay. Whoever wants to wait for a bound that the clock cannot
tell panics, even if the answer is there, and then nobody gets it. So it is too if operations are
carried out one after the other. -/
theorem replies_are_delivered_once {now : Instant} {p : Pair α} (h : (Pair.start now).Reaches p) :
    p.Truthful ∧ ∀ ops : List (Operation α),
      (Pair.start now).Plays ops ((Exchange.freshAt now).performAll ops) :=
  ⟨h.kept.truthful, (Pair.standsFor_fresh now).plays⟩

/-- A task sends and panics; before its sender is lost the receiver, which had no time at all, takes out
the answer. What the lost sender then leaves in the slot nobody gets. -/
theorem replies_are_delivered_once_before_panic : ∃ p : Pair Nat, (Pair.start 0).Reaches p ∧
    p.slot = .abandoned ∧ p.receiver = .ended 0 0 (.ok 7) ∧ p.Truthful := by
  have goes : (Pair.start 0 : Pair Nat).Reaches _ :=
    (Pair.Step.gives rfl (.sendThenFail 7 ⟨"late"⟩)).reaches.trans <|
      (@Pair.Step.begins Nat _ ⟨0⟩ rfl (by decide)).reaches.trans <|
        (Pair.Step.runs rfl).reaches.trans <| (Pair.Step.accesses rfl).reaches.trans <|
          (Pair.Step.takes rfl rfl).reaches.trans (Pair.Step.accesses rfl).reaches
  exact ⟨_, goes, rfl, rfl, (replies_are_delivered_once goes).1⟩

/-- The answer was sent, and there is something to receive; who wants to wait for it for `2 ^ 63` seconds
panics, and it is lost. -/
theorem replies_are_lost_beyond_clock : (Exchange.fresh : Exchange Nat).performAll
      [.send 7, .isReady, .receive (0x8000000000000000 * 1000), .isReady] =
    [.done, .flag true, .panicked deadlineOverflow, .gone] := rfl

end TableAccess.Reply
