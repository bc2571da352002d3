import TableAccess.Table.Grid
import TableAccess.Table.Inquiry
import TableAccess.Thread

/-!
# Tables

A table answers questions. An editable table keeps a grid; once bound to a context it lets only that
context's thread in, and every question but the one after its disposal, and every edit, checks the
thread first. Any other table is known only by what it answers: a responder may answer each question
as it likes, in view of all it was asked before, and may panic.

## The model

* `Table` — an editable table or a responder.
* `Table.ask` — the answer of one question asked on a thread, and the table after it.
* `Inquiry.run` — an inquiry asked of a table.
-/

namespace TableAccess

/-- A question as a table gets it. -/
structure Call where
  /-- The thread that asks. -/
  thread : Thread
  /-- What it asks. -/
  question : Question
deriving DecidableEq, Repr

/-- A table known only by its answers. -/
structure Responder where
  /-- What it was asked so far, the last question in front. -/
  past : List Call
  /-- What it answers in view of what it was asked before. -/
  respond : List Call → (c : Call) → Except Panic c.question.Answer

/-- An editable table. -/
structure GridTable where
  /-- Its contents. -/
  grid : Grid
  /-- The context whose thread alone may touch it, once it is bound. -/
  owner : Option ContextId
  /-- It was disposed of. -/
  disposed : Bool
deriving DecidableEq, Repr

/-- A table. -/
inductive Table where
  /-- An editable table. -/
  | grid (t : GridTable)
  /-- Any other table. -/
  | responder (r : Responder)

namespace GridTable

/-- A table that is bound to nothing. -/
def ofGrid (g : Grid) : GridTable := ⟨g, none, false⟩

/-- Binds the table for good; a table that is bound already stays as it is. -/
def bindTo (t : GridTable) (c : ContextId) : GridTable :=
  { t with owner := t.owner.or (some c) }

/-- Panics on a thread that may not touch the table. -/
def checkThread (t : GridTable) (checksOn : Bool) (now : Thread) : Except Panic Unit :=
  match t.owner with
  | none => .ok ()
  | some c =>
    Affinity.check ⟨.toolkit c⟩ checksOn now "toolkit table accessed outside the toolkit context"

/-- What the contents answer. -/
def answer (t : GridTable) : (q : Question) → q.Answer
  | .columnCount => t.grid.headers.length
  | .rowCount => t.grid.rows.length
  | .header c => t.grid.header? c
  | .name => Grid.nonempty? t.grid.name
  | .cellText r c => t.grid.cell? r c
  | .isColumn c => decide (c < t.grid.headers.length)
  | .isRow r => decide (r < t.grid.rows.length)
  | .isDisposed => t.disposed

/-- The answer of one question. -/
def ask (t : GridTable) (checksOn : Bool) (now : Thread) (q : Question) : Except Panic q.Answer :=
  match q with
  | .isDisposed => .ok (t.answer .isDisposed)
  | q => (t.checkThread checksOn now).map fun _ => t.answer q

/-- The table after an edit, and what the edit answers. -/
def edit (t : GridTable) (checksOn : Bool) (now : Thread) (e : Edit) :
    Except Panic (EditReply × GridTable) := do
  t.checkThread checksOn now
  let (reply, g) ← e.apply t.grid
  pure (reply, { t with grid := g })

/-- The table after its disposal. -/
def dispose (t : GridTable) (checksOn : Bool) (now : Thread) : Except Panic GridTable := do
  t.checkThread checksOn now
  pure { t with disposed := true }

end GridTable

/-- The answer of one question, and the responder that remembers it. -/
def Responder.ask (r : Responder) (now : Thread) (q : Question) :
    Except Panic q.Answer × Responder :=
  (r.respond r.past ⟨now, q⟩, { r with past := ⟨now, q⟩ :: r.past })

/-- The answer of one question, and the table after it. -/
def Table.ask (t : Table) (checksOn : Bool) (now : Thread) (q : Question) :
    Except Panic q.Answer × Table :=
  match t with
  | .grid g => (g.ask checksOn now q, .grid g)
  | .responder r => ((r.ask now q).1, .responder (r.ask now q).2)

/-- The outcome of an inquiry asked of a table on a thread, and the table after it. A panic of the
table ends the inquiry. -/
def Inquiry.run {α : Type} (checksOn : Bool) (now : Thread) :
    Inquiry α → Table → Except Panic α × Table
  | .done a, t => (.ok a, t)
  | .fail p, t => (.error p, t)
  | .ask q next, t =>
    match t.ask checksOn now q with
    | (.ok a, t) => (next a).run checksOn now t
    | (.error p, t) => (.error p, t)

end TableAccess
