import TableAccess.Room

/-!
# Inquiries

What the bridge can ask a table, and what one hand-off does with the answers. An inquiry asks one
question at a time, may let the next depend on the answers so far, and ends with a value or a panic.
It says nothing about who answers: the same inquiry runs against any table.

## The model

* `Question` — one question, `Question.Answer` the type of its answer.
* `Inquiry α` — a program of questions that ends with an `α`.
* `Inquiry.eval` — the outcome of an inquiry when every question has one fixed answer.
-/

namespace TableAccess

/-- A question to a table. -/
inductive Question where
  /-- How many columns are there? -/
  | columnCount
  /-- How many rows are there? -/
  | rowCount
  /-- What is the header of this column? -/
  | header (column : Nat)
  /-- What is the table's name? -/
  | name
  /-- What is the text of this cell? -/
  | cellText (row column : Nat)
  /-- Is this a column? -/
  | isColumn (column : Nat)
  /-- Is this a row? -/
  | isRow (row : Nat)
  /-- Was the table disposed of? -/
  | isDisposed
deriving DecidableEq, Repr

/-- What a question is answered with. -/
@[reducible] def Question.Answer : Question → Type
  | .columnCount => Nat
  | .rowCount => Nat
  | .header _ => Option String
  | .name => Option String
  | .cellText _ _ => Option String
  | .isColumn _ => Bool
  | .isRow _ => Bool
  | .isDisposed => Bool

/-- A program of questions. -/
inductive Inquiry (α : Type) where
  /-- Ends with a value. -/
  | done (a : α)
  /-- Ends with a panic. -/
  | fail (p : Panic)
  /-- Asks, and goes on with the answer. -/
  | ask (q : Question) (next : q.Answer → Inquiry α)

namespace Inquiry

variable {α β : Type}

/-- One inquiry after another. -/
def bind (i : Inquiry α) (f : α → Inquiry β) : Inquiry β :=
  match i with
  | .done a => f a
  | .fail p => .fail p
  | .ask q next => .ask q fun a => (next a).bind f

instance : Monad Inquiry where
  pure := .done
  bind := bind

/-- The answer of one question. -/
def question (q : Question) : Inquiry q.Answer := .ask q .done

/-- Panics unless a list of so many items finds room. -/
def makeRoom (item : Room.Item) (count : Nat) : Inquiry Unit :=
  if Room.Fits item count then .done () else .fail Room.overflow

/-- The outcome when every question has one fixed answer. -/
def eval (answer : (q : Question) → q.Answer) : Inquiry α → Except Panic α
  | .done a => .ok a
  | .fail p => .error p
  | .ask q next => (next (answer q)).eval answer

theorem eval_bind (answer : (q : Question) → q.Answer) (i : Inquiry α) (f : α → Inquiry β) :
    (i >>= f).eval answer = (i.eval answer).bind fun a => (f a).eval answer := by
  show (i.bind f).eval answer = _
  induction i with
  | done a => rfl
  | fail p => rfl
  | ask q next ih => exact ih (answer q)

end Inquiry

end TableAccess
