import TableAccess.Panic

/-!
# Durations

A span of time counted in nanoseconds, and its text: the largest unit that fits, with the exact
decimal fraction and no trailing zeros. The clock counts nanoseconds as well, but not without end: who
wants to wait until an instant that it cannot tell panics.
-/

namespace TableAccess

/-- An instant: the nanoseconds that the clock has counted until then. -/
abbrev Instant := Nat

/-- A span of time. -/
structure Duration where
  /-- Its length in nanoseconds. -/
  nanos : Nat
deriving DecidableEq, Repr

namespace Duration

def ofMillis (ms : Nat) : Duration := ⟨ms * 1000000⟩

def ofSeconds (s : Nat) : Duration := ⟨s * 1000000000⟩

def isZero (d : Duration) : Bool := d.nanos == 0

/-- The digits of a fraction with `places` decimal places, trailing zeros dropped. -/
def fraction (places part : Nat) : List Char :=
  let digits := Nat.toDigits 10 part
  let padded := List.replicate (places - digits.length) '0' ++ digits
  (padded.reverse.dropWhile (· == '0')).reverse

/-- `whole` and `part` of a unit that has `places` decimal places, then the unit's name. -/
def inUnit (whole part places : Nat) (unit : String) : String :=
  let point := if part = 0 then "" else "." ++ String.ofList (fraction places part)
  toString whole ++ point ++ unit

/-- The text of a duration: `500ms`, `1.5s`, `1.001µs`, `0ns`. -/
def render (d : Duration) : String :=
  let n := d.nanos
  if 1000000000 ≤ n then inUnit (n / 1000000000) (n % 1000000000) 9 "s"
  else if 1000000 ≤ n then inUnit (n / 1000000) (n % 1000000) 6 "ms"
  else if 1000 ≤ n then inUnit (n / 1000) (n % 1000) 3 "µs"
  else inUnit n 0 0 "ns"

/-- The clock counts seconds in 63 bits. -/
def clockSeconds : Nat := 0x8000000000000000

/-- At some instant, the clock can tell the one that lies so far ahead. -/
def FitsClock (d : Duration) (now : Instant) : Prop := (now + d.nanos) / 1000000000 < clockSeconds

instance (d : Duration) (now : Instant) : Decidable (d.FitsClock now) :=
  inferInstanceAs (Decidable ((now + d.nanos) / 1000000000 < clockSeconds))

end Duration

/-- The panic of a wait whose end the clock cannot tell. -/
def deadlineOverflow : Panic := ⟨"overflow when adding duration to instant"⟩

end TableAccess
