import TableAccess.Config.Basic
import TableAccess.Panic
import TableAccess.Room
import TableAccess.Unavailable

/-!
# Contexts

A context owns a thread and a queue of bounded length. Tasks are accepted while the context runs and
the queue has room, and the thread runs them one at a time in the order they were accepted. Stopping
refuses further tasks; what was accepted is still run before the thread exits, whether the request
to shut down found room in the queue or not.

The length of the queue may be none. Then a message goes from hand to hand: it is taken only if the
thread waits for one, and it is the only one in `queue` until the thread goes on with it.

## The model

* `Context τ` — the state of a context whose tasks are of type `τ`.
* `spawn`, `launch` — what can come of starting one.
* `accept`, `stop` — what callers do; `next`, `finish` — what the thread does. Each is one step.
* `Refusal` — why a task was not accepted.
-/

namespace TableAccess

/-- What waits in a queue. -/
inductive Message (τ : Type) where
  /-- A task to run. -/
  | run (task : τ)
  /-- The request to run what is left and exit. -/
  | shutdown

/-- Why a task was not accepted. -/
inductive Refusal where
  /-- The context was stopped. -/
  | stopped
  /-- The queue has no room. -/
  | full
deriving DecidableEq, Repr

/-- A thread with its queue. -/
structure Context (τ : Type) where
  /-- The thread's name. -/
  name : String
  /-- How long a hand-off waits unless it says otherwise. -/
  timeout : Duration
  /-- How many messages the queue holds: at least one when the configuration was checked, which who
  starts a context does not do. If none, messages are handed to the thread itself. -/
  capacity : Nat
  /-- Tasks are accepted. -/
  running : Bool
  /-- What waits, the oldest in front. -/
  queue : List (Message τ)
  /-- The task the thread is running. -/
  current : Option τ
  /-- How many accepted tasks have not finished. -/
  pending : Nat
  /-- The thread has seen the request to shut down and runs what is left. -/
  draining : Bool
  /-- The thread is gone. -/
  exited : Bool
  /-- Someone has waited for the thread to be gone. -/
  joined : Bool

namespace Context

variable {τ : Type}

/-- A context whose thread has just started. -/
def start (config : Config) : Context τ :=
  { name := config.threadName
    timeout := config.handOffTimeout
    capacity := config.queueCapacity
    running := true
    queue := []
    current := none
    pending := 0
    draining := false
    exited := false
    joined := false }

/-- The bytes of a text as a list of numbers in brackets. -/
def byteList (s : String) : String :=
  "[" ++ String.intercalate ", " (s.toUTF8.toList.map fun b => toString b.toNat) ++ "]"

/-- The position of the first byte of a text that is zero. -/
def zeroByte? (s : String) : Option Nat :=
  let bytes := s.toUTF8.toList
  if 0 ∈ bytes then some (bytes.takeWhile (· ≠ 0)).length else none

/-- A queue is shorter than this: its positions are counted in 64 bits, two of which are taken. -/
def queueLimit : Nat := 0x4000000000000000

/-- The panic when a queue is to be too long. -/
def queueTooLong : Panic := ⟨"bounded channel capacity is too large"⟩

/-- The panic of a thread that is given a name with a zero byte at position `i`. -/
def zeroByteInName (name : String) (i : Nat) : Panic :=
  ⟨"thread name may not contain interior null bytes: NulError(" ++ toString i ++ ", " ++
    byteList name ++ ")"⟩

/-- A context whose queue has been made and whose thread has just started. The queue comes first: it
may be too long, or find no room. A thread cannot be given a name with a zero byte in it. -/
def spawn (config : Config) : Except Panic (Context τ) := do
  if queueLimit ≤ config.queueCapacity then throw queueTooLong
  Room.check .message config.queueCapacity
  match zeroByte? config.threadName with
  | some i => throw (zeroByteInName config.threadName i)
  | none => pure (start config)

/-- Starts a context with a configuration, unless the system does not start its thread; `refusal` is
what the system says then. -/
def launch (refusal : Option String) (config : Config) :
    Except Panic (Except Unavailable (Context τ)) := do
  let context ← spawn config
  match refusal with
  | some source => pure (.error (.spawnFailed config.threadName source))
  | none => pure (.ok context)

/-- The thread waits for a message, and none has been handed to it yet. -/
def isWaiting (c : Context τ) : Bool :=
  c.queue.isEmpty && c.current.isNone && !c.draining && !c.exited

theorem isWaiting_of_ne_nil {c : Context τ} (waits : c.queue ≠ []) : c.isWaiting = false := by
  simp [isWaiting, waits]

/-- There is room for one more message: in the queue, or, if it holds none, in the hands of the thread
that waits for one. -/
def HasRoom (c : Context τ) : Prop :=
  c.queue.length < c.capacity ∨ c.capacity = 0 ∧ c.isWaiting = true

instance (c : Context τ) : Decidable c.HasRoom :=
  inferInstanceAs (Decidable (_ ∨ _))

/-- The context with one more task accepted. -/
def accept (c : Context τ) (task : τ) : Except Refusal (Context τ) :=
  if !c.running then .error .stopped
  else if c.HasRoom then
    .ok { c with queue := c.queue ++ [.run task], pending := c.pending + 1 }
  else .error .full

/-- The context that takes no further tasks. The request to shut down is dropped when the queue has
no room for it. -/
def stop (c : Context τ) : Context τ :=
  { c with
    running := false
    queue := if c.HasRoom ∧ !c.exited then c.queue ++ [.shutdown] else c.queue }

/-- The context was stopped and nothing is left to do. -/
def isOver (c : Context τ) : Bool := !c.running && c.pending == 0

/-- The thread leaves. -/
def exit (c : Context τ) : Context τ := { c with exited := true, running := false }

/-- The thread, when it is free, takes the next message; when none is left it leaves if it was told
to shut down, or if the context is stopped with nothing pending. -/
def next (c : Context τ) : Context τ :=
  if c.exited then c
  else
    match c.current, c.queue with
    | some _, _ => c
    | none, .run task :: rest => { c with queue := rest, current := some task }
    | none, .shutdown :: rest => { c with queue := rest, draining := true }
    | none, [] => if c.draining || c.isOver then c.exit else c

/-- The thread is free, and `next` is more than waiting. -/
def isDue (c : Context τ) : Bool :=
  !c.exited && c.current.isNone && (!c.queue.isEmpty || c.draining || c.isOver)

/-- The thread is done with its task. -/
def finish (c : Context τ) : Context τ := { c with current := none, pending := c.pending - 1 }

/-- Whether a wait for the thread's exit comes back with yes: only the first one does. -/
def join (c : Context τ) : Bool × Context τ := (!c.joined, { c with joined := true })

end Context

end TableAccess
