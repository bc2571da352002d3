import TableAccess.Act

/-!
# Schedules

Which act goes on when. Time passes only while all threads wait. A thread works until it has to
stop; then a context takes what came first into its queue, or a thread goes on that has got its
answer or finds that what it waits for holds. When none of these can be, the clock moves on to the
first instant at which someone has waited long enough.

## The model

* `Strand` — a thread with what it has still to do, and who waits for the result.
* `Sleeper` — a thread that waits.
* `Agenda` — what is going on, ready, asleep or left in a queue.
* `Schedule` — an agenda and the world.
* `Schedule.move` — what happens next; `Schedule.isOver` — there is nothing left that could.
* `Schedule.run` — moves one after the other.
-/

namespace TableAccess

/-- A thread with what it has still to do. When that is over, `caller` goes on with the result, if
someone waits for it. -/
inductive Strand (μ : Type) : Type 1 where
  | mk {β : Type} (thread : Thread) (work : Act μ β)
      (caller : Except Panic β → Option (Strand μ)) : Strand μ

/-- A thread that waits. -/
structure Sleeper (μ : Type) where
  /-- The task whose result it waits for. -/
  ticket : Option Ticket
  /-- What it waits for holds. -/
  holds : World μ → Bool
  /-- When it has waited long enough. -/
  deadline : Option Instant
  /-- How it goes on when what it waited for holds, or when it has waited long enough. -/
  next : Bool → Strand μ

/-- All that is still to do. -/
structure Agenda (μ : Type) where
  /-- Who goes on. -/
  running : Option (Strand μ)
  /-- Who can go on when the others have stopped, the next one in front. -/
  ready : List (Strand μ)
  /-- Who waits, in the order in which they began to. -/
  asleep : List (Sleeper μ)
  /-- The tasks that were accepted and not begun. -/
  left : List (Ticket × Strand μ)

/-- All that is still to do, and the world in which it is done. -/
structure Schedule (μ : Type) extends Agenda μ where
  /-- The world. -/
  world : World μ

/-- Where a context comes when several have something to do: one that has to leave comes first, then
the tasks in the order in which they were accepted. -/
def Context.turn (c : Context Ticket) : Nat :=
  match c.queue with
  | .run ticket :: _ => ticket + 1
  | _ => 0

variable {μ β : Type}

/-- The agenda once the result of a task is there: who still waits for it goes on. -/
def Agenda.answer (a : Agenda μ) (ticket : Option Ticket) (caller : Option (Strand μ)) : Agenda μ :=
  match caller, a.asleep.any fun z => z.ticket.isSome && z.ticket == ticket with
  | some strand, true =>
    { a with
      ready := a.ready ++ [strand]
      asleep := a.asleep.filter (·.ticket != ticket) }
  | _, _ => a

namespace Schedule

/-- A world in which one thread begins its work. -/
def start (w : World μ) (work : Act μ Unit) : Schedule μ :=
  ⟨⟨some (.mk w.thread work fun _ => none), [], [], []⟩, w⟩

/-- A thread is over with its work. If it was the task of a context, the task is finished, and who
still waits for its result goes on. -/
def finish (a : Agenda μ) (w : World μ) (thread : Thread) (caller : Option (Strand μ)) :
    Schedule μ :=
  match thread with
  | .client _ => ⟨a, w⟩
  | .toolkit c =>
    ⟨a.answer ((w.contexts[c]?).bind Context.current) caller, w.modifyContext c Context.finish⟩

/-- What the work of a thread has come to, and what is still to do because of it. -/
def take (a : Agenda μ) (thread : Thread) (caller : Except Panic β → Option (Strand μ)) :
    Progress μ β → Schedule μ
  | .done result w => finish a w thread (caller result)
  | .awaiting holds bound w next =>
    let sleeper := ⟨none, holds, bound.map w.after, fun b => .mk thread (next b) caller⟩
    ⟨{ a with asleep := a.asleep ++ [sleeper] }, w⟩
  | .leaving c ticket task w next =>
    let left := .mk (.toolkit c) task fun _ => none
    ⟨{ a with running := some (.mk thread next caller), left := a.left ++ [(ticket, left)] }, w⟩
  | .calling c ticket bound task w next =>
    let sleeper :=
      ⟨some ticket, fun _ => false, some (w.after bound), fun _ => .mk thread (next none) caller⟩
    let left := .mk (.toolkit c) task fun r => some (.mk thread (next (some r)) caller)
    ⟨{ a with asleep := a.asleep ++ [sleeper], left := a.left ++ [(ticket, left)] }, w⟩
  | .starting started task w next =>
    let begun := .mk started task fun _ => none
    ⟨{ a with running := some (.mk thread next caller), ready := a.ready ++ [begun] }, w⟩

/-- A thread works until it stops. -/
def resume (s : Schedule μ) : Strand μ → Schedule μ
  | .mk thread work caller =>
    take { s.toAgenda with running := none } thread caller (work { s.world with thread := thread })

/-- The task a context has just taken out of its queue begins. -/
def begin (s : Schedule μ) (ticket : Ticket) : Schedule μ :=
  { s with running := s.left.lookup ticket, left := s.left.filter (·.1 != ticket) }

/-- A context takes what is next for it; a task that it takes begins. -/
def serve (s : Schedule μ) (c : ContextId) : Schedule μ :=
  let s := { s with world := s.world.modifyContext c Context.next }
  match (s.world.contexts[c]?).bind Context.current with
  | some ticket => s.begin ticket
  | none => s

/-- A context whose thread is free takes what is next for it. -/
def serve? (s : Schedule μ) : Option (Schedule μ) :=
  let turn := ((s.world.contexts.filter Context.isDue).map Context.turn).min?
  (s.world.contexts.findIdx? fun c => c.isDue && some c.turn == turn).map s.serve

/-- The first thread that can go on does. -/
def resume? (s : Schedule μ) : Option (Schedule μ) :=
  match s.ready with
  | [] => none
  | strand :: rest => some { s with running := some strand, ready := rest }

/-- The first thread for which it is so goes on, with whether what it waited for holds. -/
def wake? (s : Schedule μ) (which : Sleeper μ → Bool) (holds : Bool) : Option (Schedule μ) :=
  (s.asleep.find? which).map fun sleeper =>
    { s with running := some (sleeper.next holds), asleep := s.asleep.eraseP which }

/-- The clock moves on to the first instant at which someone has waited long enough; who has no such
instant comes last. -/
def pass? (s : Schedule μ) : Option (Schedule μ) :=
  let first := (s.asleep.filterMap Sleeper.deadline).min?
  let now := s.world.clock
  wake? { s with world := { s.world with clock := max now (first.getD now) } } (·.deadline == first)
    false

/-- Nobody has anything left to do. -/
def isOver (s : Schedule μ) : Bool :=
  s.running.isNone && !s.world.contexts.any Context.isDue && s.ready.isEmpty && s.asleep.isEmpty

/-- What happens next; nothing when everything is over. -/
def move (s : Schedule μ) : Schedule μ :=
  match s.running with
  | some strand => s.resume strand
  | none =>
    (s.serve? <|> s.resume? <|> s.wake? (fun z => z.holds s.world) true <|> s.pass?).getD s

/-- So many moves, or fewer if something comes to hold or everything is over before. -/
def run (holds : World μ → Bool) : (moves : Nat) → Schedule μ → Schedule μ
  | 0, s => s
  | moves + 1, s => if holds s.world || s.isOver then s else run holds moves s.move

end Schedule

end TableAccess
