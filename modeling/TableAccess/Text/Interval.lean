/-!
# Intervals of code points

A class of characters is written down as a list of closed intervals of code points, and a character
is in the class when one of the intervals holds its code point.
-/

namespace TableAccess.Text

/-- A closed interval of code points, given by its two ends. -/
abbrev Interval := Nat × Nat

/-- Some interval of the class holds the code point of `c`. -/
def inIntervals (intervals : List Interval) (c : Char) : Bool :=
  intervals.any fun s => s.1 ≤ c.toNat && c.toNat ≤ s.2

theorem inIntervals_iff {intervals : List Interval} {c : Char} :
    inIntervals intervals c = true ↔ ∃ s ∈ intervals, s.1 ≤ c.toNat ∧ c.toNat ≤ s.2 := by
  simp [inIntervals]

end TableAccess.Text
