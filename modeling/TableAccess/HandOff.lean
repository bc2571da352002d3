import TableAccess.Act
import TableAccess.Table.Reading

/-!
# Hand-offs

Toolkit state is touched on its context's thread only. Whoever wants to do something there hands it
over: on that thread itself it is done at once; from anywhere else it joins the queue, and the
caller waits, but not longer than a bound. A caller that gave up leaves its task in the queue, where
it is still run; its answer is thrown away.

## The model

* `enqueue` — a place in the queue of a context, under a ticket, or why there is none.
* `handOff` — an act handed over to a context, and its result or why there is none.
* `consult` — an inquiry asked of a table on the thread that is executing.
-/

namespace TableAccess

variable {μ α : Type}

/-- What the caller gets to know about work that was done: a panic says only that there was one. -/
def ofWork : Except Panic α → Except Unavailable α
  | .ok a => .ok a
  | .error _ => .error .handOffPanicked

/-- Takes a place in the queue of a context for a task. -/
def enqueue (c : ContextId) : Act μ (Except Unavailable Ticket) := do
  let w ← get
  match w.contexts[c]? with
  | none => pure (.error .contextStopped)
  | some context =>
    match context.accept w.tickets with
    | .error .stopped => pure (.error .contextStopped)
    | .error .full =>
      Act.tell (.queueFull context.name)
      pure (.error .queueFull)
    | .ok accepted =>
      modify fun w => { w.modifyContext c fun _ => accepted with tickets := w.tickets + 1 }
      pure (.ok w.tickets)

/-- Work done at once by a caller on the context's own thread. -/
def runInline (name : String) (work : Act μ α) : Act μ (Except Unavailable α) := do
  let result ← work.attempt
  if let .error _ := result then Act.tell (.inlineTaskPanicked name)
  pure (ofWork result)

/-- Gives up a wait for the result of a task, which is still pending. -/
def giveUp (c : ContextId) (name : String) (bound : Duration) : Act μ (Except Unavailable α) := do
  let pending := (((← get).contexts[c]?).map Context.pending).getD 0
  Act.tell (.handOffTimedOut name bound pending)
  pure (.error (.timedOut bound))

/-- Leaves work to a context that has accepted it, and waits for the result. The task is with the
context before the caller finds out that it cannot tell how long to wait. -/
def runQueued (c : ContextId) (name : String) (ticket : Ticket) (bound : Duration)
    (work : Act μ α) : Act μ (Except Unavailable α) := do
  if bound.FitsClock (← get).clock then
    match ← Act.call c ticket bound work with
    | some result => pure (ofWork result)
    | none => giveUp c name bound
  else do
    Act.leave c ticket do
      let _ ← work
    throw deadlineOverflow

/-- Hands work over to a context and waits for its result, at most for `bound` or, without one, for
the context's own time. -/
def handOff (c : ContextId) (bound : Option Duration) (work : Act μ α) :
    Act μ (Except Unavailable α) := do
  Act.tell (.span .handOff)
  let w ← get
  match w.contexts[c]? with
  | none => pure (.error .contextStopped)
  | some context =>
    if w.thread = .toolkit c then runInline context.name work
    else
      match ← enqueue c with
      | .error cause => pure (.error cause)
      | .ok ticket => runQueued c context.name ticket (bound.getD context.timeout) work

/-- The outcome of an inquiry asked of a table on the executing thread; `none` when the table was
dropped. -/
def consult (t : TableId) (inquiry : Inquiry α) : Act μ (Option α) := do
  let w ← get
  match w.table? t with
  | none => pure none
  | some table =>
    let (result, table) := inquiry.run w.checksOn w.thread table
    modify (·.setTable t (some table))
    match result with
    | .ok a => pure (some a)
    | .error p => throw p

/-- A reading of a table that may have been disposed of. -/
def Reading.ofLive (read : Inquiry (Except Unavailable α)) : Inquiry (Except Unavailable α) := do
  if ← Inquiry.question .isDisposed then pure (.error .stalePeer) else read

end TableAccess
