import Mathlib.Data.List.Induction
import Mathlib.Data.List.Nodup
import TableAccess.Config.Basic

/-!
# What settings make of the defaults

A configuration holds one value for each field. Settings put values in one after the other, so of
every field the last setting counts, and a field that nobody sets keeps its default. The check looks
at the fields in their order and names the first whose value cannot be run with. The defaults all
pass, so the field at fault is always one that was set.

## The model

* `Config.get` — the value of a field, as the setting that would put it there.
* `lastOf` — the last setting of a field.
* `Config.Outcome` — what comes of the values given for some of the fields: the configuration with
  these values and the defaults for the rest, or the complaint about the first field at fault.
-/

namespace TableAccess

/-- The fields, in the order in which they are declared and checked. -/
def Field.all : List Field := [.handOffTimeout, .queueCapacity, .threadName]

/-- What is said of a value of the field that cannot be run with. -/
def Field.complaint : Field → String
  | .handOffTimeout | .queueCapacity => "must be greater than zero"
  | .threadName => "must not be empty"

theorem Field.mem_all (f : Field) : f ∈ Field.all := by cases f <;> decide

namespace Setting

/-- The field that is set. -/
def field : Setting → Field
  | .handOffTimeout _ => .handOffTimeout
  | .queueCapacity _ => .queueCapacity
  | .threadName _ => .threadName

/-- The value can be run with. -/
def usable : Setting → Bool
  | .handOffTimeout d => !d.isZero
  | .queueCapacity n => n != 0
  | .threadName s => !Text.isBlank s

end Setting

/-- The last of the settings that set the field. -/
def lastOf (settings : List Setting) (f : Field) : Option Setting :=
  settings.reverse.find? (·.field = f)

theorem field_of_lastOf {settings : List Setting} {f : Field} {s : Setting}
    (h : lastOf settings f = some s) : s.field = f := by
  simpa using List.find?_some h

theorem mem_of_lastOf {settings : List Setting} {f : Field} {s : Setting}
    (h : lastOf settings f = some s) : s ∈ settings :=
  List.mem_reverse.1 (List.mem_of_find?_eq_some h)

/-- If no field is set twice, the setting of a field is its last one. -/
theorem lastOf_eq_some_iff {settings : List Setting}
    (once : (settings.map Setting.field).Nodup) {f : Field} {s : Setting} :
    lastOf settings f = some s ↔ s ∈ settings ∧ s.field = f := by
  constructor
  · exact fun found => ⟨mem_of_lastOf found, field_of_lastOf found⟩
  · rintro ⟨mem, rfl⟩
    obtain ⟨t, found⟩ : ∃ t, lastOf settings s.field = some t :=
      Option.isSome_iff_exists.1 (List.find?_isSome.2 ⟨s, List.mem_reverse.2 mem, by simp⟩)
    rw [found, List.inj_on_of_nodup_map once (mem_of_lastOf found) mem (field_of_lastOf found)]

/-- If no field is set twice, it does not matter in which order they are set. -/
theorem lastOf_perm {settings settings' : List Setting}
    (once : (settings.map Setting.field).Nodup) (perm : settings.Perm settings') :
    lastOf settings = lastOf settings' := by
  have once' : (settings'.map Setting.field).Nodup := (perm.map _).nodup_iff.1 once
  funext f
  ext s
  rw [lastOf_eq_some_iff once, lastOf_eq_some_iff once', perm.mem_iff]

theorem lastOf_of_once {settings : List Setting} (once : (settings.map Setting.field).Nodup)
    (f : Field) : lastOf settings f = settings.find? (·.field = f) := by
  rw [lastOf_perm once settings.reverse_perm.symm, lastOf, List.reverse_reverse]

namespace Config

variable {c d : Config} {settings given : List Setting} {f : Field} {s : Setting}

/-- The value of a field, as the setting that puts it there. -/
def get (c : Config) : Field → Setting
  | .handOffTimeout => .handOffTimeout c.handOffTimeout
  | .queueCapacity => .queueCapacity c.queueCapacity
  | .threadName => .threadName c.threadName

@[simp] theorem field_get : (c.get f).field = f := by cases f <;> rfl

theorem eq_of_get (same : ∀ f, c.get f = d.get f) : c = d := by
  have timeout := same .handOffTimeout
  have capacity := same .queueCapacity
  have name := same .threadName
  cases c
  cases d
  simp_all [get]

/-- A setting changes its own field only. -/
theorem get_set (c : Config) (s : Setting) (f : Field) :
    (c.set s).get f = if s.field = f then s else c.get f := by
  cases s <;> cases f <;> rfl

/-- Of every field the last setting counts. -/
theorem get_foldl (c : Config) (settings : List Setting) (f : Field) :
    (settings.foldl set c).get f = (lastOf settings f).getD (c.get f) := by
  induction settings using List.reverseRecOn with
  | nil => rfl
  | append_singleton settings s ih =>
    rw [List.foldl_append, List.foldl_cons, List.foldl_nil, get_set, ih]
    by_cases own : s.field = f <;> simp [lastOf, own]

/-- The check finds fault with the first field whose value cannot be run with. -/
theorem validate_eq (c : Config) :
    c.validate = match Field.all.find? (fun f => !(c.get f).usable) with
      | some f => .error (.invalid f f.complaint)
      | none => .ok c := by
  unfold validate
  by_cases timeout : c.handOffTimeout.isZero
  · simp [Field.all, get, Setting.usable, timeout, Field.complaint]
  by_cases capacity : c.queueCapacity = 0
  · simp [Field.all, get, Setting.usable, timeout, capacity, Field.complaint]
  by_cases name : Text.isBlank c.threadName
  · simp [Field.all, get, Setting.usable, timeout, capacity, name, Field.complaint]
  · simp [Field.all, get, Setting.usable, timeout, capacity, name]

/-- What passes the check is a configuration whose every value can be run with. -/
theorem validate_eq_ok_iff : c.validate = .ok d ↔ c = d ∧ ∀ f, (c.get f).usable = true := by
  rw [validate_eq]
  cases found : Field.all.find? (fun f => !(c.get f).usable) with
  | some f =>
    have unusable : (c.get f).usable = false := by simpa using List.find?_some found
    simp only [reduceCtorEq, false_iff, not_and, not_forall]
    exact fun _ => ⟨f, by simp [unusable]⟩
  | none =>
    have usable : ∀ f, (c.get f).usable = true := by
      intro f
      simpa using List.find?_eq_none.1 found f f.mem_all
    simp [usable]

/-- Every default passes its own check. -/
theorem usable_default (f : Field) : (default.get f).usable = true := by cases f <;> decide

/-- What comes of the values given for some of the fields. -/
inductive Outcome (given : List Setting) : Except ConfigError Config → Prop where
  /-- All of them can be run with: the configuration has them, and the defaults for the rest. -/
  | configured {c : Config} (usable : ∀ s ∈ given, s.usable = true)
      (values : ∀ f, c.get f = (given.find? (·.field = f)).getD (default.get f)) :
      Outcome given (.ok c)
  /-- Some cannot be run with: the first field, in their order, that has such a value is named. -/
  | refused {f : Field}
      (first : Field.all.find? (fun f => given.any fun s => s.field = f && !s.usable) = some f) :
      Outcome given (.error (.invalid f f.complaint))

/-- What is built depends on the last setting of every field only. -/
theorem build_congr (same : lastOf settings = lastOf given) : build settings = build given := by
  have alike : settings.foldl set default = given.foldl set default :=
    eq_of_get fun f => by rw [get_foldl, get_foldl, same]
  unfold build
  rw [alike]

/-- A field is at fault after the settings iff one of them gives it a value at fault: the defaults
are not. -/
theorem not_usable_foldl (once : (given.map Setting.field).Nodup) (f : Field) :
    (!((given.foldl set default).get f).usable) =
      given.any fun s => s.field = f && !s.usable := by
  rw [get_foldl, Bool.eq_iff_iff]
  simp only [Bool.not_eq_true', List.any_eq_true, Bool.and_eq_true, decide_eq_true_eq]
  constructor
  · intro unusable
    cases last : lastOf given f with
    | none =>
      rw [last] at unusable
      exact absurd (usable_default f) (by simpa using unusable)
    | some s =>
      rw [last] at unusable
      exact ⟨s, mem_of_lastOf last, field_of_lastOf last, unusable⟩
  · rintro ⟨s, mem, rfl, unusable⟩
    rw [(lastOf_eq_some_iff once).2 ⟨mem, rfl⟩]
    exact unusable

/-- The settings of distinct fields come to what their values ask for. -/
theorem build_outcome (once : (given.map Setting.field).Nodup) : Outcome given (build given) := by
  have faults := funext (not_usable_foldl once)
  rw [build, validate_eq, faults]
  cases found : Field.all.find? (fun f => given.any fun s => s.field = f && !s.usable) with
  | some f => exact .refused found
  | none =>
    refine .configured (fun s mem => ?_) (fun f => ?_)
    · have clear := List.find?_eq_none.1 found s.field s.field.mem_all
      simp only [List.any_eq_true, not_exists, not_and] at clear
      simpa using clear s mem
    · rw [get_foldl, lastOf_of_once once]

end Config

end TableAccess
