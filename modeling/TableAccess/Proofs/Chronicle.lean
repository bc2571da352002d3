import Mathlib.Data.List.Basic
import TableAccess.Context

/-!
# What becomes of accepted tasks

Everything that callers and the thread of a context do to it is one of five moves, and a chronicle
keeps with the context which tasks were submitted to it, which of them it accepted, and which its
thread has begun and finished. Whatever the moves are and however those of different callers come
between those of the thread, the tasks are begun in the order in which they were accepted, and none
is begun twice or left out.

## The model

* `Move` — what is done to a context. A task that submits or stops something does so by a move
  between its beginning and its end.
* `Chronicle` — a context with the tasks that were submitted, refused, accepted, begun and finished.
* `Ledger` — the invariant: what was accepted was begun or waits, in this order.
* `accepted_work_is_done_once_in_order` — the main statement.
-/

namespace TableAccess

variable {τ : Type}

/-- The task in a message. -/
def Message.task? : Message τ → Option τ
  | .run task => some task
  | .shutdown => none

@[simp] theorem Message.task?_run (task : τ) : (Message.run task).task? = some task := rfl

@[simp] theorem Message.task?_shutdown : (Message.shutdown : Message τ).task? = none := rfl

namespace Context

/-- The tasks that wait in the queue, the oldest in front. -/
def waiting (c : Context τ) : List τ := c.queue.filterMap Message.task?

@[simp] theorem stop_running (c : Context τ) : c.stop.running = false := rfl

@[simp] theorem stop_current (c : Context τ) : c.stop.current = c.current := rfl

@[simp] theorem stop_pending (c : Context τ) : c.stop.pending = c.pending := rfl

@[simp] theorem waiting_stop (c : Context τ) : c.stop.waiting = c.waiting := by
  unfold waiting stop
  split <;> simp

theorem stop_queue_of_exited {c : Context τ} (h : c.exited = true) : c.stop.queue = c.queue := by
  simp [stop, h]

/-- A task is accepted only while the context runs, and then it waits behind all others. -/
theorem accept_eq_ok {c c' : Context τ} {task : τ} (h : c.accept task = .ok c') :
    c.running = true ∧
      c' = { c with queue := c.queue ++ [.run task], pending := c.pending + 1 } := by
  unfold accept at h
  split at h
  · cases h
  · split at h
    · exact ⟨by simp_all, by simpa using h.symm⟩
    · cases h

theorem accept_of_stopped {c : Context τ} (h : c.running = false) (task : τ) :
    c.accept task = .error .stopped := by
  simp [accept, h]

/-! ### What the thread does next -/

/-- What `next` can be: the thread is gone or busy, takes a task, takes the request to shut down,
leaves, or waits. -/
theorem next_cases (c : Context τ) :
    (c.next = c ∧ (c.exited = true ∨ c.current.isSome)) ∨
    (∃ task rest, c.current = none ∧ c.queue = .run task :: rest ∧
      c.next = { c with queue := rest, current := some task }) ∨
    (∃ rest, c.current = none ∧ c.queue = .shutdown :: rest ∧
      c.next = { c with queue := rest, draining := true }) ∨
    (c.exited = false ∧ c.current = none ∧ c.queue = [] ∧ c.next = c.exit) ∨
    (c.current = none ∧ c.queue = [] ∧ c.next = c) := by
  unfold next
  split
  · exact .inl ⟨rfl, .inl ‹_›⟩
  · split
    · exact .inl ⟨rfl, .inr (by simp_all)⟩
    · exact .inr (.inl ⟨_, _, ‹_›, ‹_›, rfl⟩)
    · exact .inr (.inr (.inl ⟨_, ‹_›, ‹_›, rfl⟩))
    · split
      · exact .inr (.inr (.inr (.inl ⟨by simp_all, ‹_›, ‹_›, rfl⟩)))
      · exact .inr (.inr (.inr (.inr ⟨‹_›, ‹_›, rfl⟩)))

/-- The thread has something to do next only when it is free. -/
theorem idle_of_isDue {c : Context τ} (due : c.isDue = true) : c.current = none := by
  simp only [isDue, Bool.and_eq_true, Option.isNone_iff_eq_none] at due
  exact due.1.2

/-- A task that a free thread takes was the first in the queue. -/
theorem next_of_takes {c : Context τ} {task : τ} (idle : c.current = none)
    (takes : c.next.current = some task) : ∃ rest, c.queue = .run task :: rest ∧
      c.next = { c with queue := rest, current := some task } := by
  rcases c.next_cases with ⟨same, -⟩ | ⟨task', rest, -, queue, next⟩ | ⟨rest, -, -, next⟩ |
    ⟨-, -, -, leaves⟩ | ⟨-, -, same⟩
  · rw [same, idle] at takes
    cases takes
  · rw [next] at takes
    cases takes
    exact ⟨rest, queue, next⟩
  · rw [next] at takes
    exact absurd takes (by simp [idle])
  · rw [leaves] at takes
    exact absurd takes (by simp [exit, idle])
  · rw [same, idle] at takes
    cases takes

/-- The task that the thread begins with its next move. -/
def beginning (c : Context τ) : List τ :=
  match c.current with
  | none => c.next.current.toList
  | some _ => []

/-! ### The ledger -/

/-- What was accepted was begun or waits, in this order; what was begun is finished, but for the
task under way. -/
structure Ledger (c : Context τ) (accepted begun finished : List τ) : Prop where
  /-- The tasks that were not begun wait, in the order in which they were accepted. -/
  order : accepted = begun ++ c.waiting
  /-- The task begun last may be under way. -/
  busy : begun = finished ++ c.current.toList
  /-- Accepted tasks are pending until they are finished. -/
  pending : c.pending = c.waiting.length + c.current.toList.length
  /-- A thread that is gone has left nothing behind, and nothing comes in any more. -/
  gone : c.exited = true → c.running = false ∧ c.queue = [] ∧ c.current = none

namespace Ledger

variable {c c' : Context τ} {accepted begun finished : List τ} {task : τ}

theorem start (config : Config) : (Context.start config : Context τ).Ledger [] [] [] :=
  ⟨rfl, rfl, rfl, fun h => by simp [Context.start] at h⟩

theorem accept (h : c.Ledger accepted begun finished) (hc : c.accept task = .ok c') :
    c'.Ledger (accepted ++ [task]) begun finished := by
  obtain ⟨running, rfl⟩ := accept_eq_ok hc
  refine ⟨?_, h.busy, ?_, ?_⟩
  · rw [h.order, List.append_assoc]
    simp [waiting]
  · have pending : c.pending = c.waiting.length + c.current.toList.length := h.pending
    have waits : ({ c with
        queue := c.queue ++ [.run task], pending := c.pending + 1 } : Context τ).waiting =
        c.waiting ++ [task] := by
      simp [waiting]
    rw [waits, List.length_append, List.length_singleton]
    show c.pending + 1 = c.waiting.length + 1 + c.current.toList.length
    omega
  · intro gone
    rw [(h.gone gone).1] at running
    cases running

theorem stop (h : c.Ledger accepted begun finished) : c.stop.Ledger accepted begun finished := by
  refine ⟨by simpa using h.order, h.busy, by simpa using h.pending, ?_⟩
  intro gone
  have gone : c.exited = true := gone
  obtain ⟨-, empty, free⟩ := h.gone gone
  exact ⟨rfl, (stop_queue_of_exited gone).trans empty, free⟩

theorem join (h : c.Ledger accepted begun finished) : c.join.2.Ledger accepted begun finished :=
  ⟨h.order, h.busy, h.pending, h.gone⟩

/-- The thread begins the task that was accepted first among those that wait. -/
theorem next (h : c.Ledger accepted begun finished) :
    c.next.Ledger accepted (begun ++ c.beginning) finished := by
  unfold beginning
  rcases next_cases c with ⟨same, idle⟩ | ⟨task, rest, free, queue, takes⟩ |
    ⟨rest, free, queue, takes⟩ | ⟨-, free, queue, leaves⟩ | ⟨free, queue, same⟩
  · have nothing : (match c.current with
        | none => c.next.current.toList
        | some _ => []) = [] := by
      rcases idle with gone | busy
      · simp [same, (h.gone gone).2.2]
      · obtain ⟨task, current⟩ := Option.isSome_iff_exists.1 busy
        simp [current]
    rw [nothing, List.append_nil, same]
    exact h
  · have hw : c.waiting = task :: rest.filterMap Message.task? := by simp [waiting, queue]
    refine ⟨?_, ?_, ?_, ?_⟩
    · rw [h.order, hw, takes]
      simp [free, waiting]
    · rw [h.busy, takes]
      simp [free]
    · have := h.pending
      rw [hw, free] at this
      rw [takes]
      simpa [waiting] using this
    · intro gone
      rw [takes] at gone
      rw [(h.gone gone).2.1] at queue
      cases queue
  · have hw : c.waiting = rest.filterMap Message.task? := by
      simp [waiting, queue, List.filterMap_cons]
    refine ⟨?_, ?_, ?_, ?_⟩
    · rw [h.order, hw, takes]
      simp [free, waiting]
    · rw [h.busy, takes]
      simp [free]
    · have := h.pending
      rw [hw, free] at this
      rw [takes]
      simpa [waiting, free] using this
    · intro gone
      rw [takes] at gone
      rw [(h.gone gone).2.1] at queue
      cases queue
  · have none_begun : c.exit.current.toList = [] := by simp [exit, free]
    rw [leaves, free]
    simp only [none_begun, List.append_nil]
    exact ⟨h.order, h.busy, h.pending, fun _ => ⟨rfl, queue, free⟩⟩
  · rw [same, free]
    simpa [free] using h

theorem finish (h : c.Ledger accepted begun finished) (current : c.current = some task) :
    c.finish.Ledger accepted begun (finished ++ [task]) := by
  refine ⟨h.order, ?_, ?_, ?_⟩
  · rw [h.busy, current]
    simp [Context.finish]
  · have := h.pending
    rw [current] at this
    simp only [Option.toList_some, List.length_singleton] at this
    simp only [Context.finish, waiting, Option.toList_none, List.length_nil] at this ⊢
    omega
  · intro gone
    rw [(h.gone gone).2.2] at current
    cases current

/-- Once the thread is gone all accepted tasks are finished, and none is pending. -/
theorem done (h : c.Ledger accepted begun finished) (gone : c.exited = true) :
    finished = accepted ∧ c.pending = 0 := by
  obtain ⟨-, empty, free⟩ := h.gone gone
  have waits : c.waiting = [] := by simp [waiting, empty]
  refine ⟨?_, ?_⟩
  · rw [h.order, h.busy, waits, free]
    simp
  · rw [h.pending, waits, free]
    rfl

end Ledger

/-! ### Chronicles -/

/-- What is done to a context. -/
inductive Move (τ : Type) where
  /-- A caller wants a task to be run, whether it waits for the result or not. -/
  | submit (task : τ)
  /-- Someone stops the context, or lets go of it as the last one who holds it. -/
  | stop
  /-- Someone waits for the exit of the thread. -/
  | join
  /-- The thread, unless it is busy, takes the next message, or finds that there is none. -/
  | advance
  /-- The thread is done with its task, which has returned or panicked. -/
  | finish
deriving DecidableEq, Repr

/-- A context and what became of the tasks that were submitted to it, each list in order. -/
structure Chronicle (τ : Type) where
  /-- The context as it is now. -/
  context : Context τ
  /-- The tasks it accepted. -/
  accepted : List τ
  /-- The tasks it refused. -/
  refused : List τ
  /-- The tasks its thread has begun. -/
  begun : List τ
  /-- The tasks its thread has finished. -/
  finished : List τ

namespace Chronicle

/-- The chronicle of a context that has just started. -/
def start (config : Config) : Chronicle τ := ⟨.start config, [], [], [], []⟩

/-- The chronicle after one more move. -/
def move (h : Chronicle τ) : Move τ → Chronicle τ
  | .submit task =>
    match h.context.accept task with
    | .ok c => { h with context := c, accepted := h.accepted ++ [task] }
    | .error _ => { h with refused := h.refused ++ [task] }
  | .stop => { h with context := h.context.stop }
  | .join => { h with context := h.context.join.2 }
  | .advance => { h with context := h.context.next, begun := h.begun ++ h.context.beginning }
  | .finish =>
    match h.context.current with
    | some task => { h with context := h.context.finish, finished := h.finished ++ [task] }
    | none => h

/-- The chronicle after moves, the first of them in front. -/
def after (h : Chronicle τ) (moves : List (Move τ)) : Chronicle τ := moves.foldl move h

/-- The tasks that moves submit. -/
def submitted (moves : List (Move τ)) : List τ :=
  moves.filterMap fun
    | .submit task => some task
    | _ => none

theorem after_append (h : Chronicle τ) (earlier later : List (Move τ)) :
    h.after (earlier ++ later) = (h.after earlier).after later :=
  List.foldl_append

/-- The books of a chronicle are in order. -/
def Sound (h : Chronicle τ) : Prop := h.context.Ledger h.accepted h.begun h.finished

theorem sound_start (config : Config) : (start config : Chronicle τ).Sound := Ledger.start config

/-- Every move keeps the books in order. -/
theorem Sound.move {h : Chronicle τ} (sound : h.Sound) (m : Move τ) : (h.move m).Sound := by
  cases m with
  | submit task =>
    simp only [Chronicle.move]
    split
    · exact Ledger.accept sound ‹_›
    · exact sound
  | stop => exact Ledger.stop sound
  | join => exact Ledger.join sound
  | advance => exact Ledger.next sound
  | finish =>
    simp only [Chronicle.move]
    split
    · exact Ledger.finish sound ‹_›
    · exact sound

theorem Sound.after {h : Chronicle τ} (sound : h.Sound) (moves : List (Move τ)) :
    (h.after moves).Sound := by
  induction moves generalizing h with
  | nil => exact sound
  | cons m rest ih => exact ih (sound.move m)

/-- Every task that is submitted is accepted or refused. -/
theorem submitted_perm (h : Chronicle τ) (moves : List (Move τ)) :
    ((h.after moves).accepted ++ (h.after moves).refused).Perm
      ((h.accepted ++ h.refused) ++ submitted moves) := by
  induction moves generalizing h with
  | nil => simp [after, submitted]
  | cons m rest ih =>
    refine (ih (h.move m)).trans ?_
    cases m with
    | submit task =>
      have first : submitted (.submit task :: rest) = task :: submitted rest := rfl
      rw [first]
      simp only [move]
      split
      · have moved : (task :: (h.refused ++ submitted rest)).Perm
            (h.refused ++ task :: submitted rest) := List.perm_middle.symm
        simp only [List.append_assoc]
        exact moved.append_left h.accepted
      · simp [List.append_assoc]
    | stop => exact .refl _
    | join => exact .refl _
    | advance => exact .refl _
    | finish =>
      simp only [move]
      split <;> exact .refl _

theorem move_running {h : Chronicle τ} (stopped : h.context.running = false) (m : Move τ) :
    (h.move m).context.running = false ∧ (h.move m).accepted = h.accepted := by
  cases m with
  | submit task => simp [move, accept_of_stopped stopped, stopped]
  | stop => exact ⟨rfl, rfl⟩
  | join => exact ⟨stopped, rfl⟩
  | advance =>
    refine ⟨?_, rfl⟩
    rcases next_cases h.context with ⟨e, -⟩ | ⟨_, _, -, -, e⟩ | ⟨_, -, -, e⟩ | ⟨-, -, -, e⟩ |
      ⟨-, -, e⟩ <;> simp [move, e, exit, stopped]
  | finish =>
    simp only [move]
    split
    · exact ⟨stopped, rfl⟩
    · exact ⟨stopped, rfl⟩

/-- A context that is stopped accepts nothing any more. -/
theorem after_stopped {h : Chronicle τ} (stopped : h.context.running = false)
    (moves : List (Move τ)) :
    (h.after moves).context.running = false ∧ (h.after moves).accepted = h.accepted := by
  induction moves generalizing h with
  | nil => exact ⟨stopped, rfl⟩
  | cons m rest ih =>
    obtain ⟨stopped', same⟩ := move_running stopped m
    obtain ⟨still, same'⟩ := ih stopped'
    exact ⟨still, same'.trans same⟩

theorem stopped_of_mem {h : Chronicle τ} {moves : List (Move τ)} (stop : .stop ∈ moves) :
    (h.after moves).context.running = false := by
  obtain ⟨earlier, later, rfl⟩ := List.append_of_mem stop
  rw [after_append]
  exact (after_stopped (stop_running _) later).1

end Chronicle

/-- Accepted work is neither lost, duplicated nor reordered. Whatever is done to a context, in
whatever order: every task that was submitted was either accepted or refused; the tasks that its
thread has begun are the first of the accepted ones, in the order in which they were accepted, and
all but the one under way are finished; a task that was submitted once is begun at most once, and
not at all if it was refused; after a stop nothing is accepted; and when the thread is gone, by
whichever way it left, all accepted tasks are finished and none is pending. -/
theorem accepted_work_is_done_once_in_order (config : Config) (moves : List (Move τ)) :
    let h := (Chronicle.start config).after moves
    (h.accepted ++ h.refused).Perm (Chronicle.submitted moves) ∧
    h.begun <+: h.accepted ∧
    h.begun = h.finished ++ h.context.current.toList ∧
    ((Chronicle.submitted moves).Nodup → h.begun.Nodup ∧ ∀ task ∈ h.refused, task ∉ h.begun) ∧
    (.stop ∈ moves → ∀ later, (h.after later).accepted = h.accepted) ∧
    (h.context.exited = true → h.finished = h.accepted ∧ h.context.pending = 0) := by
  intro h
  have books : h.context.Ledger h.accepted h.begun h.finished :=
    (Chronicle.sound_start config).after moves
  have perm : (h.accepted ++ h.refused).Perm (Chronicle.submitted moves) := by
    exact Chronicle.submitted_perm (Chronicle.start config) moves
  have first : h.begun <+: h.accepted := ⟨_, books.order.symm⟩
  refine ⟨perm, first, books.busy, ?_, ?_, books.done⟩
  · intro once
    obtain ⟨accepted, -, apart⟩ := List.nodup_append.1 (perm.nodup_iff.2 once)
    exact ⟨accepted.sublist first.sublist,
      fun task refused begun => apart task (first.subset begun) task refused rfl⟩
  · intro stop later
    exact (Chronicle.after_stopped (Chronicle.stopped_of_mem stop) later).2

/-- The request to shut down waits behind the task; the thread takes it, and leaves. -/
example :
    let h : Chronicle Nat := (Chronicle.start ⟨.ofMillis 1, 2, "t"⟩).after
      [.submit 7, .stop, .advance, .finish, .advance, .advance];
    h.finished = [7] ∧ h.context.draining = true ∧ h.context.exited = true := by decide

/-- The queue is full, and the request is dropped; the thread leaves when it finds nothing more
to do. -/
example :
    let h : Chronicle Nat := (Chronicle.start ⟨.ofMillis 1, 1, "t"⟩).after
      [.submit 7, .stop, .advance, .finish, .advance];
    h.finished = [7] ∧ h.context.draining = false ∧ h.context.exited = true := by decide

end Context

end TableAccess
