/-!
# Names

A finite map from names to things, kept as a list of pairs; a name that is given again leads to the
newer thing.
-/

namespace TableAccess.Session

/-- Things by name. -/
abbrev Names (α : Type) := List (String × α)

namespace Names

variable {α : Type}

/-- The thing with a name. -/
def find? (names : Names α) (name : String) : Option α := names.lookup name

/-- Without the thing of a name. -/
def forget (names : Names α) (name : String) : Names α := names.filter (·.1 ≠ name)

/-- With a thing under a name, in place of the one before. -/
def put (names : Names α) (name : String) (thing : α) : Names α :=
  (name, thing) :: names.forget name

/-- All things that have a name. -/
def things (names : Names α) : List α := names.map Prod.snd

theorem find?_put_self (names : Names α) (name : String) (thing : α) :
    (names.put name thing).find? name = some thing := by
  simp [find?, put]

theorem find?_forget_self (names : Names α) (name : String) :
    (names.forget name).find? name = none := by
  simp only [find?, forget, List.lookup_eq_none_iff, List.mem_filter]
  grind

end Names

end TableAccess.Session
