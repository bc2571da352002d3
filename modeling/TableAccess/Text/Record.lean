/-!
# Records as text

The debug text of a value with named fields: its name, then the fields in order, in braces.
-/

namespace TableAccess.Text

/-- The text of one field. -/
def field (name value : String) : String := name ++ ": " ++ value

/-- The text of a value with named fields. -/
def record (name : String) (fields : List (String × String)) : String :=
  name ++ " \x7b " ++ String.intercalate ", " (fields.map fun (n, v) => field n v) ++ " \x7d"

/-- The text of a value that wraps another. -/
def wrapped (name value : String) : String := name ++ "(" ++ value ++ ")"

/-- The text of yes or no. -/
def flag (b : Bool) : String := if b then "true" else "false"

/-- The text of a value that may be missing. -/
def option : Option String → String
  | some value => wrapped "Some" value
  | none => "None"

end TableAccess.Text
