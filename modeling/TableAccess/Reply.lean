import TableAccess.Duration

/-!
# Replies

A task that owes its caller an answer holds the sender of a reply; the caller waits on the receiver
for a bounded time. The sender can be sent once, or be lost unsent: dropped, or held by a task that
panics or is dropped without running. A lost sender wakes the receiver at once. The caller works out
first until when to wait, and panics if the clock cannot tell, whatever there is to receive.

## The model

* `Slot` — what sender and receiver share: nothing yet, the answer, or the news that none will come.
* `Carrier` — what a task does that was given the sender.
* `Exchange` — one reply pair with the task that may hold its sender, and `Exchange.perform`, one
  operation on it. Time passes only while the receiver waits, which it does once.
-/

namespace TableAccess.Reply

/-- What the two ends of a reply share. -/
inductive Slot (α : Type) where
  /-- Nothing was sent and the sender is alive. -/
  | pending
  /-- The answer. -/
  | ready (value : α)
  /-- The sender is lost and nothing was sent. -/
  | abandoned
deriving DecidableEq, Repr

namespace Slot

variable {α : Type}

/-- Something is there to receive. -/
def isReady : Slot α → Bool
  | .pending => false
  | _ => true

/-- The slot once its sender is gone. An answer that was sent stays. -/
def loseSender : Slot α → Slot α
  | .pending => .abandoned
  | s => s

end Slot

/-- How a receiver can end without an answer. -/
inductive Failure where
  /-- The bound went by first. -/
  | timedOut
  /-- The sender was lost. -/
  | abandoned
deriving DecidableEq, Repr

/-- What a task does with the sender it was given. -/
inductive Carrier (α : Type) where
  /-- Sends. -/
  | send (value : α)
  /-- Panics while it holds the sender. -/
  | fail (panic : Panic)
  /-- Sends, then panics. -/
  | sendThenFail (value : α) (panic : Panic)
  /-- Ends without sending. -/
  | forget
deriving DecidableEq, Repr

namespace Carrier

variable {α : Type}

/-- The slot after the task has run. -/
def fill : Carrier α → Slot α → Slot α
  | .send v, _ => .ready v
  | .sendThenFail v _, _ => .ready v
  | .fail _, s => s.loseSender
  | .forget, s => s.loseSender

/-- The panic the task ends with, if it does. -/
def panic? : Carrier α → Option Panic
  | .fail p => some p
  | .sendThenFail _ p => some p
  | _ => none

end Carrier

/-- One reply pair and those who hold its ends. -/
structure Exchange (α : Type) where
  /-- What the ends share. -/
  slot : Slot α
  /-- The caller holds the sender itself. -/
  hasSender : Bool
  /-- The caller still holds the receiver. -/
  hasReceiver : Bool
  /-- The task that holds the sender and waits to run. -/
  task : Option (Carrier α)
  /-- An answer that another thread sends after so many milliseconds. -/
  coming : Option (Nat × α)
  /-- What the clock shows until the receiver waits. -/
  clock : Instant
deriving DecidableEq, Repr

/-- An operation on an exchange. -/
inductive Operation (α : Type) where
  /-- Ask whether something is there to receive. -/
  | isReady
  /-- Send. -/
  | send (value : α)
  /-- Have another thread send after a delay. -/
  | sendLater (value : α) (millis : Nat)
  /-- Drop the sender. -/
  | dropSender
  /-- Give the sender to a task. -/
  | give (task : Carrier α)
  /-- Run the task. -/
  | execute
  /-- Drop the task without running it. -/
  | dropTask
  /-- Wait for the answer, at most so long. -/
  | receive (millis : Nat)
  /-- Drop the receiver. -/
  | dropReceiver
  /-- Anything else; what it would need is never there. -/
  | unknown
deriving DecidableEq, Repr

/-- What an operation answers. -/
inductive Outcome (α : Type) where
  /-- Nothing to say. -/
  | done
  /-- What it needs is not there any more. -/
  | gone
  /-- Whether something is there to receive. -/
  | flag (b : Bool)
  /-- The task ran to its end. -/
  | completed
  /-- The task panicked, or who was to wait did. -/
  | panicked (panic : Panic)
  /-- What the receiver got. -/
  | received (result : Except Failure α)

namespace Exchange

variable {α : Type}

/-- A fresh pair, made at some instant. -/
def freshAt (clock : Instant) : Exchange α := ⟨.pending, true, true, none, none, clock⟩

/-- A fresh pair. -/
def fresh : Exchange α := freshAt 0

/-- What a receiver gets that waits at most `millis`. -/
def await (x : Exchange α) (millis : Nat) : Except Failure α :=
  match x.slot with
  | .ready v => .ok v
  | .abandoned => .error .abandoned
  | .pending =>
    match x.coming with
    | some (delay, v) => if delay ≤ millis then .ok v else .error .timedOut
    | none => .error .timedOut

/-- What comes of waiting at most `millis`: the instant at which the time is over is worked out first. -/
def receive (x : Exchange α) (millis : Nat) : Outcome α :=
  if (Duration.ofMillis millis).FitsClock x.clock then .received (x.await millis)
  else .panicked deadlineOverflow

/-- One operation. -/
def perform (x : Exchange α) : Operation α → Outcome α × Exchange α
  | .isReady => if x.hasReceiver then (.flag x.slot.isReady, x) else (.gone, x)
  | .send v =>
    if x.hasSender then (.done, { x with slot := .ready v, hasSender := false }) else (.gone, x)
  | .sendLater v ms =>
    if x.hasSender then (.done, { x with coming := some (ms, v), hasSender := false })
    else (.gone, x)
  | .dropSender =>
    if x.hasSender then (.done, { x with slot := x.slot.loseSender, hasSender := false })
    else (.gone, x)
  | .give task =>
    if x.hasSender then (.done, { x with task := some task, hasSender := false }) else (.gone, x)
  | .execute =>
    match x.task with
    | none => (.gone, x)
    | some task =>
      let x := { x with slot := task.fill x.slot, task := none }
      match task.panic? with
      | some p => (.panicked p, x)
      | none => (.completed, x)
  | .dropTask =>
    match x.task with
    | none => (.gone, x)
    | some _ => (.done, { x with slot := x.slot.loseSender, task := none })
  | .receive ms =>
    if x.hasReceiver then (x.receive ms, { x with hasReceiver := false }) else (.gone, x)
  | .dropReceiver =>
    if x.hasReceiver then (.done, { x with hasReceiver := false }) else (.gone, x)
  | .unknown => (.gone, x)

/-- The answers of operations carried out in order. -/
def performAll (x : Exchange α) : List (Operation α) → List (Outcome α)
  | [] => []
  | op :: ops => (x.perform op).1 :: (x.perform op).2.performAll ops

end Exchange

end TableAccess.Reply
