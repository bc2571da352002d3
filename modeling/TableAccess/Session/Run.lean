import TableAccess.Schedule
import TableAccess.Session.ContextCalls
import TableAccess.Session.TableCalls
import TableAccess.Session.TreeCalls

/-!
# Sessions

A session carries out steps one after the other. A step may have a context carry out further steps,
on a thread that works while the session goes on; after each of its steps the session stands back
until everyone else has done what can be done at that moment. After every step, inside or outside,
what nobody holds any more is let go of.

## The model

* `perform` — one step, on the thread that is executing. Its fuel bounds how deep steps are carried
  out inside steps; no step is carried out twice, so as much as there are steps in all is enough.
* `follow` — the act of the session's own thread.
* `Session.run` — all steps of a session, each with what it told on the thread that carried it out.
-/

namespace TableAccess.Session

/-- The bound of a wait for a step that is carried out on the thread of a context. -/
def toolkitBound : Duration := .ofSeconds 10

/-- A report of the work of a step; a panic or a trouble is its outcome. -/
def report (work : Work Report) : Act Desk Report := do
  match ← Act.attempt work.run with
  | .ok (.ok r) => pure r
  | .ok (.error t) => pure (.ofTrouble t)
  | .error p => pure (.ofTrouble (.panicked p))

/-- The report of an answer. -/
def answered (work : Work Answer) : Work Report := return .outcome (.answer (← work))

/-- The outcome of the work of a step on its own. -/
def outcome (work : Work Answer) : Act Desk Outcome := do
  match ← Act.attempt work.run with
  | .ok (.ok a) => pure (.answer a)
  | .ok (.error t) => pure (.trouble t)
  | .error p => pure (.trouble (.panicked p))

/-- A node asked from several threads at once. -/
def askAtOnce (a : Adapter) (call : NodeCall) (threads : Nat) : Act Desk Report := do
  let found ← inCrew (List.replicate threads do return [← outcome (askNode a call)])
  let outcomes := found.flatten
  pure (.agreement outcomes.eraseDups.length outcomes.head?)

/-- Starts a context in place of the one with the name. -/
def newContext (name : String) (settings : Option (List Setting)) : Work Answer := do
  let config ←
    match settings with
    | none => pure Config.default
    | some settings =>
      match Config.build settings with
      | .ok config => pure config
      | .error e => throw (.misconfigured e)
  let context ← orUnavailable (← orPanic (Context.launch none config))
  let c := (← get).contexts.length
  act (modify fun w => { w with contexts := w.contexts ++ [context] })
  act (Act.tell (.contextStarted config.threadName config.handOffTimeout))
  act (modifyDesk fun d => { d with contexts := d.contexts.put name c })
  pure .nothing

/-- Work handed over to the context with a name. -/
def visit {α : Type} (name : String) (bound : Option Duration) (work : Act Desk α) : Work α := do
  let c ← contextNamed name
  orUnavailable (← act (handOff c bound work))

/-- Takes the reports of posted steps. -/
def takePosted (context : String) : Work Report := do
  awaitIdle (← contextNamed context)
  let posted := (← desk).posted
  act (modifyDesk fun d => { d with posted := [] })
  pure (.several posted)

/-- Keeps the report of a posted step, behind those of the steps before it. -/
def keepReport (r : Report) : Act Desk Unit :=
  modifyDesk fun d => { d with posted := d.posted ++ [r] }

/-- Posted steps. The report of each is kept at once, so that the next step finds it among the
posted reports. -/
def runPosted (inner : Step → Act Desk Report) (steps : List Step) : Act Desk Unit := do
  for step in steps do keepReport (← inner step)

/-- Lets go of a held node; answers whether there was one. -/
def dropHandle (name : String) : Work Answer := do
  let held := ((← desk).handles.find? name).isSome
  act (modifyDesk fun d => { d with handles := d.handles.forget name })
  pure (.flag held)

/-- Drops a bridge; answers whether there was one. -/
def dropBridge (name : String) : Work Answer := do
  let known := ((← desk).bridges.find? name).isSome
  act (modifyDesk fun d => { d with bridges := d.bridges.forget name })
  pure (.flag known)

/-- The work of a step, where `inner` carries out the steps inside. -/
def carryOut (inner : Step → Act Desk Report) : Step → Work Report
  | .newTable table source => answered (newTable table source)
  | .bind table context => answered (bindTable table context)
  | .dropTable table => answered do return .flag (← dropTable table)
  | .table table call => answered do askTable (← tableNamed table) call
  | .attach table bridge toTree handle => answered (attach table bridge toTree handle)
  | .hold ref handle => answered do
    let a ← adapterAt ref
    act (keyKept handle (some a))
  | .dropHandle handle => answered (dropHandle handle)
  | .newBridge bridge source => answered (newBridge bridge source)
  | .dropBridge bridge => answered (dropBridge bridge)
  | .newContext context settings => answered (newContext context settings)
  | .checks on? => answered do
    act (modify fun w => { w with checksOn := on?.getD w.checksOn })
    return .flag (← get).checksOn
  | .node ref call => answered do askNode (← adapterAt ref) call
  | .nodeAtOnce ref call threads => do
    let a ← adapterAt ref
    act (askAtOnce a call threads)
  | .tree bridge call => answered do askTree (← bridgeNamed bridge) call
  | .bridge bridge call => answered do askBridge (← bridgeNamed bridge) call
  | .peer peer call => answered (askPeer peer call)
  | .context context call => answered (askContext context call)
  | .invoke context steps bound =>
    return .several (← visit context bound (Act.each steps inner))
  | .post context steps => answered do
    post (← contextNamed context) (runPosted inner steps)
    pure .nothing
  | .takePosted context => takePosted context
  | .onToolkit context step => visit context toolkitBound (inner step)
  | .malformed => complain .badInput

/-- One step, carried out on the thread that is executing. -/
def perform : (fuel : Nat) → Step → Act Desk Report
  | 0, _ => pure (.ofComplaint .badInput)
  | fuel + 1, step => do
    let r ← holding (report (carryOut (perform fuel) step))
    collect
    pure r

/-- Work, with what it told on the thread that did it. -/
def heardFrom {α : Type} (work : Act Desk α) : Act Desk (α × List Event) := do
  let since := (← get).log.length
  let thread := (← get).thread
  let a ← work
  return (a, (← get).heard since thread)

/-- One step of a session, carried out by the session's own thread or handed over by it. -/
def performHeard (fuel : Nat) : Step → Act Desk Result
  | .onToolkit context step => do
    let result ← holding
      (visit context toolkitBound (heardFrom (perform fuel step))).run.attempt
    collect
    match result with
    | .ok (.ok (r, told)) => pure ⟨r, some told⟩
    | .ok (.error t) => pure ⟨.ofTrouble t, none⟩
    | .error p => pure ⟨.ofTrouble (.panicked p), none⟩
  | step => do
    let (r, told) ← heardFrom (perform fuel step)
    pure ⟨r, some told⟩

/-- The name of the context a session starts with. -/
def firstContext : String := "c0"

/-- The name of the bridge a session starts with. -/
def firstBridge : String := "b0"

/-- What a session starts with: a context with some settings, and a bridge over a tree that is read
on it. -/
def open? (settings : List Setting) : Act Desk Outcome :=
  holding (outcome do
    let _ ← newContext firstContext (some settings)
    newBridge firstBridge (.fresh firstContext))

/-- Closes the session. -/
def close (how : Except Trouble Unit) : Act Desk Unit :=
  modifyDesk fun d => { d with closing := some how }

/-- Keeps what a step came to. -/
def keepResult (r : Result) : Act Desk Unit :=
  modifyDesk fun d => { d with results := r :: d.results }

/-- All that the thread of a session does. -/
def follow (settings : List Setting) (steps : List Step) : Act Desk Unit := do
  match ← open? settings with
  | .trouble t => close (.error t)
  | .answer _ =>
    for step in steps do
      keepResult (← performHeard (Step.sizeAll steps + 1) step)
      Act.standBack
    close (.ok ())

/-- More moves than any session makes in a lifetime. -/
def patience : Nat := 0x4000000000000000

/-- What the clock shows when sessions begin. It counts from when the machine was started, which was some
days before. -/
def opening : Instant := 0x100000 * 1000000000

/-- The world in which a session is over that began at some instant. -/
def worldAfter (began : Instant) (settings : List Setting) (steps : List Step) : World Desk :=
  let world := { World.empty Desk.empty with clock := began }
  let schedule := Schedule.start world (follow settings steps)
  (schedule.run (fun w => w.memory.closing.isSome) patience).world

/-- All steps of a session, unless it cannot be opened. -/
def run (settings : List Setting) (steps : List Step) : Except Trouble (List Result) :=
  let memory := (worldAfter opening settings steps).memory
  match memory.closing with
  | some (.error t) => .error t
  | _ => .ok memory.results.reverse

end TableAccess.Session
