/-!
# Panics

A panic is an abrupt end of the work under way, raised with a text for people. Only its first line
is ever shown.
-/

namespace TableAccess

/-- A panic. -/
structure Panic where
  /-- The text it was raised with. -/
  text : String
deriving DecidableEq, Repr

namespace Panic

/-- A line without the carriage return that a line break may carry before it. -/
def dropReturn (line : List Char) : List Char :=
  if line.getLast? = some '\r' then line.dropLast else line

/-- The first line of the text. -/
def firstLine (p : Panic) : String :=
  let chars := p.text.toList
  let line := chars.takeWhile (· ≠ '\n')
  String.ofList (if line.length < chars.length then dropReturn line else line)

end Panic

end TableAccess
