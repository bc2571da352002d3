import TableAccess.DebugText
import TableAccess.Session.Desk

/-!
# Calls to contexts

What a session asks of contexts, apart from having them carry out steps.

## The model

* `post` — a task put into a context's queue, without waiting for it.
* `awaitIdle`, `awaitEnd`, `joinContext` — a step that waits.
* `gate`, `release` — a task that keeps a context's thread busy.
* `inCrew` — acts of several threads at once.
* `askContext` — what a context answers.
-/

namespace TableAccess.Session

/-- A context. -/
def contextAt (c : ContextId) : Work (Context Ticket) := do
  orComplain .noContext (← get).contexts[c]?

/-- Something is so of a context. -/
def isSo (c : ContextId) (so : Context Ticket → Bool) (w : World Desk) : Bool :=
  (w.contexts[c]?).any so

/-- Waits until something is so of a context. -/
def awaitSo (c : ContextId) (so : Context Ticket → Bool) : Act Desk Unit := do
  let _ ← Act.await (isSo c so) none

/-- Puts a task into the queue of a context. -/
def post (c : ContextId) (task : Act Desk Unit) : Work Unit := do
  let ticket ← orUnavailable (← act (enqueue c))
  act (Act.leave c ticket task)

/-- The thread of a context is kept busy until it is released. -/
def isGated (c : ContextId) : Work Bool := return (← desk).gated.contains c

/-- The thread that carries out the step is the context's own. -/
def onOwnThread (c : ContextId) : Work Bool := return (← get).thread = .toolkit c

/-- Waits until nothing is pending. A thread cannot wait for itself, and there is no waiting for one
that is kept busy. -/
def awaitIdle (c : ContextId) : Work Unit := do
  unless (← isGated c) || (← onOwnThread c) do
    act (awaitSo c fun context => context.pending == 0)

/-- What can be told about a context. -/
def contextInfo (c : ContextId) : Work ContextInfo := do
  let context ← contextAt c
  let thread := (← get).thread
  pure
    { name := context.name
      timeout := context.timeout
      running := context.running
      onThread := decide (thread = .toolkit c)
      sameAffinity := Affinity.isSame ⟨.toolkit c⟩ thread
      pending := context.pending }

/-- Waits for the end of a context, at most so long; answers whether the thread is gone, or the
context was stopped at least. -/
def awaitEnd (c : ContextId) (millis : Nat) : Work Answer := do
  awaitIdle c
  if (← contextAt c).isOver then pure (.flag true)
  else
    let gone ← act (Act.await (isSo c Context.exited) (some (.ofMillis millis)))
    return .flag (gone || !(← contextAt c).running)

/-- Waits for the exit of a context's thread. A thread cannot wait for itself, and a wait for a
thread that is kept busy, or that nobody has stopped, would never end. -/
def joinContext (c : ContextId) : Work Answer := do
  let context ← contextAt c
  if ← onOwnThread c then pure (.flag false)
  else if (← isGated c) || context.running then complain .wouldBlock
  else
    let (answer, context) := context.join
    act do
      modify (·.modifyContext c fun _ => context)
      awaitSo c Context.exited
    pure (.flag answer)

/-- Stops a context and waits for the exit of its thread. -/
def stopAndJoin (c : ContextId) : Work Answer := do
  if (← isGated c) && !(← onOwnThread c) then complain .wouldBlock
  else
    act (stopContext c)
    joinContext c

/-- Keeps the thread of a context busy, and waits until it is. -/
def gate (c : ContextId) : Work Answer := do
  if ← isGated c then complain .alreadyGated
  else
    let ticket ← orUnavailable (← act (enqueue c))
    act do
      modifyDesk fun d => { d with gated := c :: d.gated }
      Act.leave c ticket do
        let _ ← Act.await (fun w => !w.memory.gated.contains c) none
    unless ← onOwnThread c do
      act (awaitSo c fun context => context.current == some ticket)
    pure .nothing

/-- Lets the thread of a context go on, and waits until nothing is pending; answers whether the
thread was kept busy. -/
def release (c : ContextId) : Work Answer := do
  let gated ← isGated c
  act (modifyDesk fun d => { d with gated := d.gated.erase c })
  awaitIdle c
  pure (.flag gated)

/-- What one thread of a crew does, at its place in it. -/
def crewMember (crew place : Nat) (work : Act Desk (List Outcome)) : Act Desk Unit := do
  let found ← holding work
  modifyDesk fun d => { d with findings := ((crew, place), found) :: d.findings }

/-- What several threads find out, each with work of its own, that begin at once. -/
def inCrew (works : List (Act Desk (List Outcome))) : Act Desk (List (List Outcome)) := do
  let crew := (← get).clients
  for (work, place) in works.zipIdx do Act.start (crewMember crew place work)
  let size := works.length
  let _ ← Act.await (fun w => w.memory.findings.countP (·.1.1 == crew) == size) none
  let findings := (← get).memory.findings
  modifyDesk fun d => { d with findings := d.findings.filter (·.1.1 != crew) }
  pure ((List.range size).filterMap fun place => findings.lookup (crew, place))

/-- Hands a task over that does nothing; finds out whether it was done. -/
def touch (c : ContextId) : Act Desk Outcome := do
  match ← (handOff c none (pure ())).attempt with
  | .ok (.ok ()) => pure (.answer (.flag true))
  | _ => pure (.answer (.flag false))

/-- Hands tasks over from several threads at once. Each that is done is done on the context's own
thread. -/
def countTasks (c : ContextId) (threads each : Nat) : Act Desk Answer := do
  let work := Act.each (List.range each) fun _ => touch c
  let found ← inCrew (List.replicate threads work)
  let done := (found.flatten.filter (· == .answer (.flag true))).length
  pure (.tally done done)

/-- What a context answers. -/
def askContext (name : String) (call : ContextCall) : Work Answer := do
  let c ← contextNamed name
  match call with
  | .info => do
    awaitIdle c
    return .context (← contextInfo c)
  | .debugText => do
    awaitIdle c
    return .text (some (← contextAt c).debugText)
  | .stop => do
    act (stopContext c)
    pure .nothing
  | .join => joinContext c
  | .stopAndJoin => stopAndJoin c
  | .awaitEnd millis => awaitEnd c millis
  | .invokePanic bound => do
    orUnavailable (← act (handOff c bound (throw ⟨"scripted panic"⟩ : Act Desk Answer)))
  | .postPanic => do
    post c (throw ⟨"scripted panic"⟩)
    pure .nothing
  | .gate => gate c
  | .release => release c
  | .check message => do
    let w ← get
    orPanic (Affinity.check ⟨.toolkit c⟩ w.checksOn w.thread message)
    pure .nothing
  | .assert message => do
    orPanic (Affinity.assertSame ⟨.toolkit c⟩ (← get).thread message)
    pure .nothing
  | .drop => do
    act (modifyDesk fun d => { d with contexts := d.contexts.forget name })
    pure (.flag true)
  | .count threads each => act (countTasks c threads each)
  | .malformed => complain .badInput

end TableAccess.Session
