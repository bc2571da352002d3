import TableAccess.Duration
import TableAccess.Text.Blank

/-!
# Configuration

How long a hand-off may wait, how many tasks a context may queue, and what its thread is called. A
configuration starts from the defaults, takes settings one by one, and is checked once at the end.

## The model

* `Config` — the three values; `Config.default` the ones nobody set.
* `Setting` — one value to set; a later setting of a field wins over an earlier one.
* `Config.validate` — the first field, in the order of declaration, that cannot be run with.
-/

namespace TableAccess

/-- How a bridge and its context run. -/
structure Config where
  /-- How long a hand-off waits for its answer. -/
  handOffTimeout : Duration
  /-- How many tasks the context's queue holds. -/
  queueCapacity : Nat
  /-- The name of the context's thread. -/
  threadName : String
deriving DecidableEq, Repr

/-- A field of a configuration. -/
inductive Field where
  /-- How long a hand-off waits. -/
  | handOffTimeout
  /-- How many tasks the queue holds. -/
  | queueCapacity
  /-- The name of the thread. -/
  | threadName
deriving DecidableEq, Repr

/-- The name of a field in messages. -/
def Field.name : Field → String
  | .handOffTimeout => "handoff_timeout"
  | .queueCapacity => "queue_capacity"
  | .threadName => "context_thread_name"

/-- Why a file could not be read as text. -/
inductive ReadErrorKind where
  /-- There is no such file. -/
  | notFound
  /-- The bytes are not text. -/
  | invalidData
  /-- The path names a directory. -/
  | isADirectory
  /-- Any other cause. -/
  | other
deriving DecidableEq, Repr

/-- Why there is no configuration. -/
inductive ConfigError where
  /-- The document cannot be read as settings. -/
  | malformed
  /-- The file cannot be read. -/
  | unreadable (path : String) (kind : ReadErrorKind) (cause : String)
  /-- A field holds a value that cannot be run with. -/
  | invalid (field : Field) (reason : String)
deriving DecidableEq, Repr

/-- The message for people. -/
def ConfigError.message : ConfigError → String
  | .malformed => "invalid bridge configuration"
  | .unreadable path _ cause =>
    "failed to read bridge configuration '" ++ path ++ "': " ++ cause
  | .invalid field reason => "invalid value for '" ++ field.name ++ "': " ++ reason

/-- One value to set. -/
inductive Setting where
  /-- How long a hand-off waits. -/
  | handOffTimeout (d : Duration)
  /-- How many tasks the queue holds. -/
  | queueCapacity (n : Nat)
  /-- The name of the thread. -/
  | threadName (s : String)
deriving DecidableEq, Repr

namespace Config

/-- The configuration nobody changed. -/
def default : Config := ⟨.ofMillis 500, 256, "axbridge-toolkit"⟩

/-- The configuration with one value set. -/
def set (c : Config) : Setting → Config
  | .handOffTimeout d => { c with handOffTimeout := d }
  | .queueCapacity n => { c with queueCapacity := n }
  | .threadName s => { c with threadName := s }

/-- Refuses a configuration that cannot be run with, naming the first field at fault. -/
def validate (c : Config) : Except ConfigError Config :=
  if c.handOffTimeout.isZero then .error (.invalid .handOffTimeout "must be greater than zero")
  else if c.queueCapacity = 0 then .error (.invalid .queueCapacity "must be greater than zero")
  else if Text.isBlank c.threadName then .error (.invalid .threadName "must not be empty")
  else .ok c

/-- The checked configuration that the settings make of the defaults. -/
def build (settings : List Setting) : Except ConfigError Config :=
  (settings.foldl set default).validate

end Config

end TableAccess
