import TableAccess.Room

/-!
# Grids

The contents of an editable table: a name, the headers of the columns, and rows with one cell for
each column. Positions are counted from zero. Edits that point outside the grid are clamped or do
nothing.

## The model

* `Grid` — name, headers and rows.
* `Edit` — one change, `Edit.apply` the grid after it and what it answers.
* `insertAt`, `removeAt` — a change of one list that panics when the position is outside it. In a
  grid whose rows all have a cell for each header no edit gets there.
-/

namespace TableAccess

/-- Name, headers and rows of a table. -/
structure Grid where
  /-- The table's name. -/
  name : String
  /-- The header of each column. -/
  headers : List String
  /-- The cells of each row. -/
  rows : List (List String)
deriving DecidableEq, Repr

/-- A change of a grid. -/
inductive Edit where
  /-- Give the table a name. -/
  | setName (text : String)
  /-- Put an empty column at a position, or behind the last one. -/
  | insertColumn (index : Nat) (header : String)
  /-- Take a column away. -/
  | removeColumn (index : Nat)
  /-- Have exactly so many columns; new ones are empty and come last. -/
  | setColumnCount (count : Nat)
  /-- Give a column a header. -/
  | setHeader (column : Nat) (header : String)
  /-- Put a row behind the last one, padded or cut to the number of columns. -/
  | appendRow (cells : List String)
  /-- Take a row away. -/
  | removeRow (index : Nat)
  /-- Give a cell a text. -/
  | setCell (row column : Nat) (text : String)
  /-- Take all rows away. -/
  | clearRows
deriving DecidableEq, Repr

/-- What an edit answers. -/
inductive EditReply where
  /-- Nothing. -/
  | nothing
  /-- The header of the column that was taken away, if there was one. -/
  | header (text : Option String)
  /-- Whether there was a row to take away. -/
  | removed (b : Bool)
deriving DecidableEq, Repr

namespace Grid

/-- `x` put in at position `i`. -/
def insertAt {α : Type} (i : Nat) (x : α) (l : List α) : Except Panic (List α) :=
  if i ≤ l.length then .ok (l.insertIdx i x)
  else .error ⟨"insertion index (is " ++ toString i ++ ") should be <= len (is " ++
    toString l.length ++ ")"⟩

/-- What stands at position `i` taken away. -/
def removeAt {α : Type} (i : Nat) (l : List α) : Except Panic (List α) :=
  if i < l.length then .ok (l.eraseIdx i)
  else .error ⟨"removal index (is " ++ toString i ++ ") should be < len (is " ++
    toString l.length ++ ")"⟩

/-- The first `n` items, padded with empty texts up to `n`. -/
def resize (n : Nat) (l : List String) : List String :=
  l.take n ++ List.replicate (n - l.length) ""

/-- Position `i` of every row is changed by `f`. -/
def mapRows (f : List String → Except Panic (List String)) (g : Grid) :
    Except Panic (List (List String)) :=
  g.rows.mapM f

end Grid

namespace Edit

open Grid

/-- The grid after an edit, and what the edit answers. -/
def apply (e : Edit) (g : Grid) : Except Panic (EditReply × Grid) :=
  match e with
  | .setName text => .ok (.nothing, { g with name := text })
  | .insertColumn index header => do
    let i := min index g.headers.length
    let headers ← insertAt i header g.headers
    let rows ← g.mapRows (insertAt i "")
    pure (.nothing, { g with headers := headers, rows := rows })
  | .removeColumn index =>
    match g.headers[index]? with
    | none => .ok (.header none, g)
    | some header => do
      let rows ← g.mapRows (removeAt index)
      let headers ← removeAt index g.headers
      pure (.header (some header), { g with headers := headers, rows := rows })
  | .setColumnCount count =>
    if g.headers.length < count ∧ ¬Room.Fits .text count then .error Room.overflow
    else
      .ok (.nothing,
        { g with headers := resize count g.headers, rows := g.rows.map (resize count) })
  | .setHeader column header => .ok (.nothing, { g with headers := g.headers.set column header })
  | .appendRow cells =>
    .ok (.nothing, { g with rows := g.rows ++ [resize g.headers.length cells] })
  | .removeRow index =>
    if index < g.rows.length then do
      let rows ← removeAt index g.rows
      pure (.removed true, { g with rows := rows })
    else .ok (.removed false, g)
  | .setCell row column text =>
    .ok (.nothing, { g with rows := g.rows.modify row (·.set column text) })
  | .clearRows => .ok (.nothing, { g with rows := [] })

end Edit

namespace Grid

/-- A grid without rows. -/
def ofHeaders (name : String) (headers : List String) : Grid := ⟨name, headers, []⟩

/-- The text, unless it is empty. -/
def nonempty? (s : String) : Option String := if s = "" then none else some s

/-- The header of a column, if it has one. -/
def header? (g : Grid) (column : Nat) : Option String := g.headers[column]?.bind nonempty?

/-- The text of a cell. -/
def cell? (g : Grid) (row column : Nat) : Option String := g.rows[row]?.bind (·[column]?)

end Grid

end TableAccess
