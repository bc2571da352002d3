import TableAccess.World

/-!
# Acts

The work of a thread: an act changes the world, ends with a value or a panic, and may have to stop
short before it is over, because it hands a task to another thread or has to wait. Where it stops it
says what for, and how it goes on with whatever comes of that. Who works meanwhile and how long it
takes is not its business: an act is all of its own ways on, and one of them is taken by the
schedule.

## The model

* `Progress μ α` — how far an act has come: it is over, or it has stopped for something.
* `Act μ α` — an act that yields an `α`, in a world with memory `μ`.
* `Act.await`, `Act.leave`, `Act.call`, `Act.start` — what an act can stop for.
* `Act.attempt` — an act whose panic ends with it; `Act.each` — an act for each item of a list.

An act is a monad in every law (`LawfulMonad`), and `each` does its acts one after the other
(`each_cons`).
-/

namespace TableAccess

/-- How far an act has come. Every world in it is the one in which the act stopped; it goes on in
the world it finds then. -/
inductive Progress (μ : Type) : Type → Type 1 where
  /-- It is over. -/
  | done {α : Type} (result : Except Panic α) (w : World μ) : Progress μ α
  /-- It waits until something holds, or for a bound; it goes on with whether it holds. -/
  | awaiting {α : Type} (holds : World μ → Bool) (bound : Option Duration) (w : World μ)
      (next : Bool → World μ → Progress μ α) : Progress μ α
  /-- It leaves a task to the context that accepted it. -/
  | leaving {α : Type} (c : ContextId) (ticket : Ticket) (task : World μ → Progress μ Unit)
      (w : World μ) (next : World μ → Progress μ α) : Progress μ α
  /-- It leaves a task to the context that accepted it and waits for the result, at most for a
  bound. -/
  | calling {α β : Type} (c : ContextId) (ticket : Ticket) (bound : Duration)
      (task : World μ → Progress μ β) (w : World μ)
      (next : Option (Except Panic β) → World μ → Progress μ α) : Progress μ α
  /-- It starts a thread outside every context. -/
  | starting {α : Type} (thread : Thread) (task : World μ → Progress μ Unit) (w : World μ)
      (next : World μ → Progress μ α) : Progress μ α

/-- The work of a thread, from the world it begins in. -/
def Act (μ : Type) (α : Type) : Type 1 := World μ → Progress μ α

variable {μ α β γ : Type}

namespace Progress

/-- One act after another, the first being as far as it has come. -/
def bind : Progress μ α → (α → Act μ β) → Progress μ β
  | .done (.ok a) w, f => f a w
  | .done (.error p) w, _ => .done (.error p) w
  | .awaiting holds bound w next, f => .awaiting holds bound w fun b w' => (next b w').bind f
  | .leaving c ticket task w next, f => .leaving c ticket task w fun w' => (next w').bind f
  | .calling c ticket bound task w next, f =>
    .calling c ticket bound task w fun r w' => (next r w').bind f
  | .starting thread task w next, f => .starting thread task w fun w' => (next w').bind f

/-- An act whose panic ends with it, as far as it has come. -/
def attempt : Progress μ α → Progress μ (Except Panic α)
  | .done result w => .done (.ok result) w
  | .awaiting holds bound w next => .awaiting holds bound w fun b w' => (next b w').attempt
  | .leaving c ticket task w next => .leaving c ticket task w fun w' => (next w').attempt
  | .calling c ticket bound task w next =>
    .calling c ticket bound task w fun r w' => (next r w').attempt
  | .starting thread task w next => .starting thread task w fun w' => (next w').attempt

theorem bind_pure (p : Progress μ α) : (p.bind fun a w => .done (.ok a) w) = p := by
  induction p with
  | done result w => cases result <;> rfl
  | awaiting holds bound w next ih => simp only [bind, ih]
  | leaving c ticket task w next _ ih => simp only [bind, ih]
  | calling c ticket bound task w next _ ih => simp only [bind, ih]
  | starting thread task w next _ ih => simp only [bind, ih]

theorem bind_assoc (p : Progress μ α) (f : α → Act μ β) (g : β → Act μ γ) :
    (p.bind f).bind g = p.bind fun a w => (f a w).bind g := by
  induction p with
  | done result w => cases result <;> rfl
  | awaiting holds bound w next ih => simp only [bind, ih]
  | leaving c ticket task w next _ ih => simp only [bind, ih]
  | calling c ticket bound task w next _ ih => simp only [bind, ih]
  | starting thread task w next _ ih => simp only [bind, ih]

end Progress

namespace Act

instance : Monad (Act μ) where
  pure a := fun w => .done (.ok a) w
  bind act f := fun w => (act w).bind f

instance : MonadStateOf (World μ) (Act μ) where
  get := fun w => .done (.ok w) w
  set w := fun _ => .done (.ok ()) w
  modifyGet f := fun w =>
    let (a, w') := f w
    .done (.ok a) w'

/-- An act whose panic ends with it. -/
def attempt (act : Act μ α) : Act μ (Except Panic α) := fun w => (act w).attempt

instance : MonadExceptOf Panic (Act μ) where
  throw p := fun w => .done (.error p) w
  tryCatch act handler := do
    match ← act.attempt with
    | .ok a => pure a
    | .error p => handler p

theorem pure_apply (a : α) (w : World μ) : (pure a : Act μ α) w = .done (.ok a) w := rfl

theorem bind_apply (act : Act μ α) (f : α → Act μ β) (w : World μ) :
    (act >>= f) w = (act w).bind f := rfl

instance : LawfulMonad (Act μ) :=
  LawfulMonad.mk' _ (fun act => funext fun w => Progress.bind_pure (act w)) (fun _ _ => rfl)
    (fun act f g => funext fun w => Progress.bind_assoc (act w) f g)

/-- Waits until something holds, or for a bound; yields whether it holds. -/
def await (holds : World μ → Bool) (bound : Option Duration) : Act μ Bool := fun w =>
  .awaiting holds bound w fun b w' => .done (.ok b) w'

/-- Leaves a task to the context that accepted it. -/
def leave (c : ContextId) (ticket : Ticket) (task : Act μ Unit) : Act μ Unit := fun w =>
  .leaving c ticket task w fun w' => .done (.ok ()) w'

/-- Leaves a task to the context that accepted it, and yields the result if it comes within a
bound. -/
def call (c : ContextId) (ticket : Ticket) (bound : Duration) (task : Act μ α) :
    Act μ (Option (Except Panic α)) := fun w =>
  .calling c ticket bound task w fun r w' => .done (.ok r) w'

/-- Starts a thread outside every context. -/
def start (task : Act μ Unit) : Act μ Unit := fun w =>
  .starting (.client w.clients) task { w with clients := w.clients + 1 } fun w' => .done (.ok ()) w'

/-- Stands back until all others have done what they can do at this moment. -/
def standBack : Act μ Unit := do
  let _ ← await (fun _ => false) (some ⟨0⟩)

/-- Tells an event. -/
def tell (e : Event) : Act μ Unit := modify (·.tell e)

/-- Panics unless a list of so many items finds room. -/
def makeRoom (item : Room.Item) (count : Nat) : Act μ Unit :=
  if Room.Fits item count then pure () else throw Room.overflow

/-- The results of an act for each item, in order, behind those that are there already, the last of
which is in front. -/
def eachAfter (results : List α) (items : List β) (act : β → Act μ α) : Act μ (List α) :=
  match items with
  | [] => pure results.reverse
  | b :: rest => do
    let a ← act b
    eachAfter (a :: results) rest act

/-- The results of an act for each item, in order. -/
def each (items : List β) (act : β → Act μ α) : Act μ (List α) := eachAfter [] items act

theorem eachAfter_eq (results : List α) (items : List β) (act : β → Act μ α) :
    eachAfter results items act = (results.reverse ++ ·) <$> each items act := by
  unfold each
  induction items generalizing results with
  | nil => simp [eachAfter]
  | cons b rest ih =>
    simp only [eachAfter, map_bind]
    congr 1
    funext a
    rw [ih (a :: results), ih [a]]
    simp

@[simp] theorem each_nil (act : β → Act μ α) : each [] act = pure [] := rfl

/-- The first item comes first. -/
theorem each_cons (b : β) (rest : List β) (act : β → Act μ α) :
    each (b :: rest) act = (do
      let a ← act b
      let as ← each rest act
      pure (a :: as)) := by
  show eachAfter [] (b :: rest) act = _
  simp only [eachAfter]
  congr 1
  funext a
  rw [eachAfter_eq, map_eq_pure_bind]
  simp

end Act

end TableAccess
