import TableAccess.Panic

/-!
# Threads and affinity

Toolkit state belongs to one thread. An affinity names that thread; a check passes on it and panics
elsewhere.

## The model

* `Thread` — a client outside every context, or the thread of a context.
* `Affinity` — the owning thread, with `assertSame`, which always checks, and `check`, which checks
  while checks are switched on.
-/

namespace TableAccess

/-- Names a context. -/
abbrev ContextId := Nat

/-- A thread of control. -/
inductive Thread where
  /-- A thread outside every context. -/
  | client (n : Nat)
  /-- The thread of a context. -/
  | toolkit (context : ContextId)
deriving DecidableEq, Repr

/-- The thread some state belongs to. -/
structure Affinity where
  /-- The only thread that may touch the state. -/
  owner : Thread
deriving DecidableEq, Repr

namespace Affinity

/-- The panic of an access from another thread. -/
def violation (message : String) : Panic :=
  ⟨"toolkit thread affinity violation: " ++ message ++
    "\n  hint: hand the access over to the owning thread"⟩

def isSame (a : Affinity) (now : Thread) : Bool := now == a.owner

/-- Panics unless `now` is the owner. -/
def assertSame (a : Affinity) (now : Thread) (message : String) : Except Panic Unit :=
  if a.isSame now then .ok () else .error (violation message)

/-- Panics unless `now` is the owner, while checks are on. -/
def check (a : Affinity) (checksOn : Bool) (now : Thread) (message : String) : Except Panic Unit :=
  if checksOn then a.assertSame now message else .ok ()

theorem assertSame_eq_ok_iff {a : Affinity} {now : Thread} {message : String} :
    a.assertSame now message = .ok () ↔ now = a.owner := by
  simp [assertSame, isSame]

theorem check_eq_ok_iff {a : Affinity} {checksOn : Bool} {now : Thread} {message : String} :
    a.check checksOn now message = .ok () ↔ (checksOn = true → now = a.owner) := by
  cases checksOn <;> simp [check, assertSame_eq_ok_iff]

end Affinity

end TableAccess
