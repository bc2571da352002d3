import TableAccess.Session.Desk

/-!
# Calls to tables

How a session makes tables and what it asks of them, on the thread that carries out the step.
-/

namespace TableAccess.Session

/-- The outcome of an inquiry asked of a table that a name leads to. -/
def inquire {α : Type} (t : TableId) (inquiry : Inquiry α) : Work α := do
  orComplain .noTable (← act (consult t inquiry))

/-- A table, unless it was dropped. -/
def tableAt (t : TableId) : Work Table := do orComplain .noTable ((← get).table? t)

/-- An editable table, or else a complaint. -/
def gridAt (t : TableId) : Work GridTable := do
  match ← tableAt t with
  | .grid g => pure g
  | .responder _ => complain .wrongKind

/-- Puts an editable table in place of what was there. -/
def setGrid (t : TableId) (g : GridTable) : Work Unit :=
  act (modify (·.setTable t (some (.grid g))))

/-- The answer to a question as an answer of the session. -/
def answerOf : (q : Question) → q.Answer → Answer
  | .columnCount, n => .count (some n)
  | .rowCount, n => .count (some n)
  | .header _, s => .text s
  | .name, s => .text s
  | .cellText _ _, s => .text s
  | .isColumn _, b => .flag b
  | .isRow _, b => .flag b
  | .isDisposed, b => .flag b

/-- An edit, and all that the table shows after it. -/
def editTable (t : TableId) (e : Edit) : Work Answer := do
  let g ← gridAt t
  let w ← get
  let (reply, g) ← orPanic (g.edit w.checksOn w.thread e)
  setGrid t g
  return .edited reply (← inquire t Reading.contents)

/-- The disposal of a table, and all that the table shows after it. -/
def disposeTable (t : TableId) : Work Answer := do
  let g ← gridAt t
  let w ← get
  let g ← orPanic (g.dispose w.checksOn w.thread)
  setGrid t g
  return .edited .nothing (← inquire t Reading.contents)

/-- What a table answers. -/
def askTable (t : TableId) : TableCall → Work Answer
  | .ask q => do return answerOf q (← inquire t (Inquiry.question q))
  | .contents => do return .contents (← inquire t Reading.contents)
  | .isBound => do return .flag (← gridAt t).owner.isSome
  | .edit e => editTable t e
  | .dispose => disposeTable t
  | .malformed => complain .badInput
  | .malformedEdit => do
    let _ ← gridAt t
    complain .badInput

/-- A grid with rows put in one after the other. -/
def gridOf (name : String) (headers : List String) (rows : List (List String)) :
    Except Panic Grid :=
  rows.foldlM (fun g cells => (Edit.apply (.appendRow cells) g).map Prod.snd)
    (Grid.ofHeaders name headers)

/-- A new table. -/
def TableSource.make : TableSource → Work Table
  | .grid name headers rows owner => do
    let t := GridTable.ofGrid (← orPanic (gridOf name headers rows))
    match owner with
    | none => pure (.grid t)
    | some context => return .grid (t.bindTo (← contextNamed context))
  | .script s => pure s.table
  | .malformed => complain .badInput

/-- Drops the table with a name; answers whether there was one. -/
def dropTable (name : String) : Work Bool := do
  match (← desk).tables.find? name with
  | none => pure false
  | some t =>
    act (modify (·.setTable t none))
    act (modifyDesk fun d => { d with tables := d.tables.forget name })
    pure true

/-- Makes a table in place of the one with the name. -/
def newTable (name : String) (source : TableSource) : Work Answer := do
  let table ← source.make
  let _ ← dropTable name
  let t := (← get).tables.length
  act (modify fun w => { w with tables := w.tables ++ [some table] })
  act (modifyDesk fun d => { d with tables := d.tables.put name t })
  pure .nothing

/-- Binds a table to a context; answers whether it is bound. -/
def bindTable (name context : String) : Work Answer := do
  let t ← tableNamed name
  let g ← gridAt t
  let c ← contextNamed context
  setGrid t (g.bindTo c)
  return .flag (← gridAt t).owner.isSome

end TableAccess.Session
