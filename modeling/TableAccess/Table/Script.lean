import TableAccess.Table.Basic

/-!
# Scripted tables

A table that answers by a script: counts and validity follow a sequence, one item for each time they
are asked and answer, the last item repeating; headers and cells are fixed; some questions may be
set to panic.

## The model

* `Script` — the sequences and fixed answers.
* `Script.respond` — the answer to a question in view of the questions before it.
* `Script.table` — the table that answers so.
-/

namespace TableAccess

/-- What can be set to panic. -/
inductive Method where
  /-- The number of columns. -/
  | columnCount
  /-- The number of rows. -/
  | rowCount
  /-- The header of a column. -/
  | columnHeader
  /-- The name. -/
  | tableName
  /-- The text of a cell. -/
  | cellText
  /-- Whether a column exists. -/
  | isIndexValid
  /-- Whether a row exists. -/
  | isRowValid
  /-- Whether the table was disposed of. -/
  | isDisposed
deriving DecidableEq, Repr

namespace Method

def all : List Method :=
  [.columnCount, .rowCount, .columnHeader, .tableName, .cellText, .isIndexValid, .isRowValid,
    .isDisposed]

def name : Method → String
  | .columnCount => "column_count"
  | .rowCount => "row_count"
  | .columnHeader => "column_header"
  | .tableName => "table_name"
  | .cellText => "cell_text"
  | .isIndexValid => "is_index_valid"
  | .isRowValid => "is_row_valid"
  | .isDisposed => "is_disposed"

/-- The method with a name. -/
def ofName? (s : String) : Option Method := all.find? (·.name == s)

/-- The panic of a method that is set to panic. -/
def panic (m : Method) : Panic := ⟨"scripted panic: " ++ m.name⟩

end Method

/-- The method that answers a question. -/
def Question.method : Question → Method
  | .columnCount => .columnCount
  | .rowCount => .rowCount
  | .header _ => .columnHeader
  | .name => .tableName
  | .cellText _ _ => .cellText
  | .isColumn _ => .isIndexValid
  | .isRow _ => .isRowValid
  | .isDisposed => .isDisposed

/-- How a scripted table answers. -/
structure Script where
  /-- The numbers of columns. -/
  columnCounts : List Nat
  /-- The numbers of rows. -/
  rowCounts : List Nat
  /-- The headers; a column may have none. -/
  headers : List (Option String)
  /-- The name. -/
  name : Option String
  /-- The texts of the cells, row by row; a cell may have none. -/
  cells : List (List (Option String))
  /-- Whether a column exists; without it the number of columns decides. -/
  columnValid : Option (List Bool)
  /-- Whether a row exists; without it the number of rows decides. -/
  rowValid : Option (List Bool)
  /-- Whether the table was disposed of. -/
  disposed : List Bool
  /-- The methods that panic. -/
  panics : List Method
deriving DecidableEq, Repr

namespace Script

/-- The question takes an item of the numbers of columns. -/
def takesColumnCount (s : Script) : Question → Bool
  | .columnCount => true
  | .isColumn _ => s.columnValid.isNone
  | _ => false

/-- The question takes an item of the numbers of rows. -/
def takesRowCount (s : Script) : Question → Bool
  | .rowCount => true
  | .isRow _ => s.rowValid.isNone
  | _ => false

/-- How many items satisfy `p`, counted no further than `limit`. -/
def countUpTo {α : Type} (p : α → Bool) : (limit : Nat) → List α → Nat
  | 0, _ => 0
  | _ + 1, [] => 0
  | limit + 1, a :: rest =>
    if p a then countUpTo p limit rest + 1 else countUpTo p (limit + 1) rest

theorem countUpTo_eq {α : Type} (p : α → Bool) (limit : Nat) (l : List α) :
    countUpTo p limit l = min (l.countP p) limit := by
  induction l generalizing limit with
  | nil => cases limit <;> simp [countUpTo]
  | cons a l ih =>
    cases limit with
    | zero => simp [countUpTo]
    | succ limit =>
      by_cases h : p a
      · simp only [countUpTo, h, if_true, ih, List.countP_cons_of_pos]
        omega
      · simp [countUpTo, h, ih]

/-- A call took an item: its question is of the kind that does, and it got an answer. A method that
panics does so before it takes an item. -/
def took (s : Script) (kind : Question → Bool) (c : Call) : Bool :=
  kind c.question && !s.panics.contains c.question.method

/-- The item of a sequence whose turn it is, of which each call so far took one; the last item
repeats. -/
def turn {α : Type} (s : Script) (past : List Call) (kind : Question → Bool) (fallback : α)
    (items : List α) : α :=
  (items[countUpTo (s.took kind) (items.length - 1) past]?).getD fallback

theorem turn_eq {α : Type} (s : Script) (past : List Call) (kind : Question → Bool) (fallback : α)
    (items : List α) :
    s.turn past kind fallback items =
      (items[min (past.countP (s.took kind)) (items.length - 1)]?).getD fallback := by
  rw [turn, countUpTo_eq]

def isColumnQuestion : Question → Bool
  | .isColumn _ => true
  | _ => false

def isRowQuestion : Question → Bool
  | .isRow _ => true
  | _ => false

/-- Panics when the method is set to. -/
def guard (s : Script) (m : Method) : Except Panic Unit :=
  if m ∈ s.panics then .error m.panic else .ok ()

/-- The number of columns this time. -/
def columnCount (s : Script) (past : List Call) : Except Panic Nat := do
  s.guard .columnCount
  pure (s.turn past s.takesColumnCount 0 s.columnCounts)

/-- The number of rows this time. -/
def rowCount (s : Script) (past : List Call) : Except Panic Nat := do
  s.guard .rowCount
  pure (s.turn past s.takesRowCount 0 s.rowCounts)

/-- Whether a column exists this time. -/
def isColumn (s : Script) (past : List Call) (column : Nat) : Except Panic Bool :=
  match s.columnValid with
  | some items => .ok (s.turn past isColumnQuestion false items)
  | none => (s.columnCount past).map fun count => decide (column < count)

/-- Whether a row exists this time. -/
def isRow (s : Script) (past : List Call) (row : Nat) : Except Panic Bool :=
  match s.rowValid with
  | some items => .ok (s.turn past isRowQuestion false items)
  | none => (s.rowCount past).map fun count => decide (row < count)

/-- The answer to a question whose method does not panic. -/
def answer (s : Script) (past : List Call) : (q : Question) → Except Panic q.Answer
  | .columnCount => s.columnCount past
  | .rowCount => s.rowCount past
  | .header c => .ok (s.headers[c]?).join
  | .name => .ok s.name
  | .cellText r c => .ok (s.cells[r]?.bind (·[c]?)).join
  | .isColumn c => s.isColumn past c
  | .isRow r => s.isRow past r
  | .isDisposed => .ok (s.turn past (· == .isDisposed) false s.disposed)

/-- The answer to a question in view of the questions before it. -/
def respond (s : Script) (past : List Call) (q : Question) : Except Panic q.Answer :=
  (s.guard q.method).bind fun _ => s.answer past q

/-- The table that answers by the script. -/
def table (s : Script) : Table := .responder ⟨[], fun past c => s.respond past c.question⟩

end Script

end TableAccess
