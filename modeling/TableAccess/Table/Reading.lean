import TableAccess.Table.Inquiry
import TableAccess.Unavailable

/-!
# Readings

What the nodes of a table read in one hand-off. A reading that is about a row or a column first asks
whether it is still there, and if not reports the index with the count of that moment. All that one
reading asks it asks at one moment, with nothing in between.
-/

namespace TableAccess

/-- Name and counts of a table. -/
structure Shape where
  /-- The table's name, if it has one. -/
  name : Option String
  /-- How many rows there are. -/
  rows : Nat
  /-- How many columns there are. -/
  columns : Nat
deriving DecidableEq, Repr

/-- What a cell reads. -/
structure CellText where
  /-- The text of the cell. -/
  text : Option String
  /-- The header of its column. -/
  header : Option String
deriving DecidableEq, Repr

/-- All that a table shows. -/
structure Contents where
  /-- The table's name, if it has one. -/
  name : Option String
  /-- The headers of its columns. -/
  headers : List (Option String)
  /-- The texts of its cells, row by row. -/
  rows : List (List (Option String))
  /-- It was disposed of. -/
  disposed : Bool
deriving DecidableEq, Repr

namespace Reading

open Inquiry

variable {α : Type}

/-- A reading that always has a value. -/
def ofInquiry (i : Inquiry α) : Inquiry (Except Unavailable α) := do pure (.ok (← i))

/-- Nothing but the liveness of the table. -/
def nothing : Inquiry (Except Unavailable Unit) := pure (.ok ())

/-- Name and counts. -/
def shape : Inquiry (Except Unavailable Shape) := ofInquiry do
  let name ← question .name
  let rows ← question .rowCount
  let columns ← question .columnCount
  pure ⟨name, rows, columns⟩

/-- The number of columns. -/
def columnCount : Inquiry (Except Unavailable Nat) := ofInquiry (question .columnCount)

/-- The number of rows. -/
def rowCount : Inquiry (Except Unavailable Nat) := ofInquiry (question .rowCount)

/-- The name. -/
def name : Inquiry (Except Unavailable (Option String)) := ofInquiry (question .name)

/-- Whether a column is there. -/
def hasColumn (column : Nat) : Inquiry (Except Unavailable Bool) :=
  ofInquiry (question (.isColumn column))

/-- Whether a row is there. -/
def hasRow (row : Nat) : Inquiry (Except Unavailable Bool) := ofInquiry (question (.isRow row))

/-- Whether a cell is there. -/
def hasCell (row column : Nat) : Inquiry (Except Unavailable Bool) := ofInquiry do
  if ← question (.isRow row) then question (.isColumn column) else pure false

/-- The headers of the columns from `first` on, `count` of them. -/
def headersFrom : (first count : Nat) → Inquiry (List (Option String))
  | _, 0 => pure []
  | first, count + 1 => do
    let header ← question (.header first)
    let rest ← headersFrom (first + 1) count
    pure (header :: rest)

/-- The headers of the first `count` columns, in a list that has its room beforehand. -/
def headersOf (count : Nat) : Inquiry (List (Option String)) := do
  makeRoom .text count
  headersFrom 0 count

/-- All headers. -/
def headers : Inquiry (Except Unavailable (List (Option String))) := ofInquiry do
  let count ← question .columnCount
  headersOf count

/-- A reading about a column, which has to be there. -/
def ofColumn (column : Nat) (read : Inquiry α) : Inquiry (Except Unavailable α) := do
  if ← question (.isColumn column) then
    pure (.ok (← read))
  else
    let count ← question .columnCount
    pure (.error (.indexOutOfRange .column column count))

/-- A reading about a row, which has to be there. -/
def ofRow (row : Nat) (read : Inquiry α) : Inquiry (Except Unavailable α) := do
  if ← question (.isRow row) then
    pure (.ok (← read))
  else
    let count ← question .rowCount
    pure (.error (.indexOutOfRange .row row count))

/-- The index of a column. -/
def columnIndex (column : Nat) : Inquiry (Except Unavailable Nat) :=
  ofColumn column (pure column)

/-- The header of a column. -/
def headerText (column : Nat) : Inquiry (Except Unavailable (Option String)) :=
  ofColumn column (question (.header column))

/-- The number of cells of a column. -/
def rowsOfColumn (column : Nat) : Inquiry (Except Unavailable Nat) :=
  ofColumn column (question .rowCount)

/-- The index of a row. -/
def rowIndex (row : Nat) : Inquiry (Except Unavailable Nat) := ofRow row (pure row)

/-- The number of cells of a row. -/
def columnsOfRow (row : Nat) : Inquiry (Except Unavailable Nat) :=
  ofRow row (question .columnCount)

/-- The text and header of a cell; its row is looked at before its column. -/
def cell (row column : Nat) : Inquiry (Except Unavailable CellText) := do
  if ← question (.isRow row) then
    ofColumn column do
      let text ← question (.cellText row column)
      let header ← question (.header column)
      pure (CellText.mk text header)
  else
    let count ← question .rowCount
    pure (.error (.indexOutOfRange .row row count))

/-- The texts of a row from column `first` on, `count` of them. -/
def textsFrom (row : Nat) : (first count : Nat) → Inquiry (List (Option String))
  | _, 0 => pure []
  | first, count + 1 => do
    let text ← question (.cellText row first)
    let rest ← textsFrom row (first + 1) count
    pure (text :: rest)

/-- The texts of `count` rows from row `first` on, each with so many columns. -/
def rowsFrom (columns : Nat) : (first count : Nat) → Inquiry (List (List (Option String)))
  | _, 0 => pure []
  | first, count + 1 => do
    let texts ← textsFrom first 0 columns
    let rest ← rowsFrom columns (first + 1) count
    pure (texts :: rest)

/-- The texts of the first `count` rows, in a list that has its room beforehand. -/
def rowsOf (columns count : Nat) : Inquiry (List (List (Option String))) := do
  makeRoom .row count
  rowsFrom columns 0 count

/-- All that a table shows. It is asked whatever became of the table. -/
def contents : Inquiry Contents := do
  let rows ← question .rowCount
  let columns ← question .columnCount
  let name ← question .name
  let headers ← headersOf columns
  let texts ← rowsOf columns rows
  let disposed ← question .isDisposed
  pure ⟨name, headers, texts, disposed⟩

end Reading

end TableAccess
