import TableAccess.Proofs.Peers
import TableAccess.Proofs.ScopedRequests

/-!
# Latches

A peer that has found its table gone is latched: whoever asks through it is told so at once. Nothing
takes the latch back, and nothing sets it but a call that has found the table gone. A context that is
stopped, full or slow, and a table that panics or has no such row, leave it as it is.

## The model

* `World.Latched`, `World.Unlatched` — a peer is latched, or refers to a table and is not.
* `Peer.latch`, `Peer.invalidate_done` — what latching a peer comes to; `Peer.isValid_of_dropped`,
  `Peer.isValid_of_unlatched` — what a question for validity comes to.
* `World.Shows` — a table is there and does not say that it was disposed of.
* `Conduct.leavingUnlatched` — a call that leaves the latch as it finds it.
* `Table.Always`, `World.Lives` — whatever a table is asked, and in whatever order, it answers so; a
  table that stays.
* `invalidation_is_a_latch` — the main statement.
-/

namespace TableAccess

variable {μ α : Type} {R : World μ → World μ → Prop} {w w' : World μ} {p : PeerId} {t : TableId}
  {c : ContextId}

/-! ### Latched peers -/

namespace World

/-- A peer is latched. -/
def Latched (w : World μ) (p : PeerId) : Prop :=
  ∀ peer, w.peers[p]? = some peer → peer.invalidated = true

/-- A peer reads a table on a context and is not latched. -/
def Unlatched (w : World μ) (p : PeerId) (t : TableId) (c : ContextId) : Prop :=
  w.peers[p]? = some ⟨t, c, false⟩

/-- A table is there, and does not say here that it was disposed of. -/
def Shows (w : World μ) (t : TableId) : Prop :=
  ∃ table, w.table? t = some table ∧ (table.ask w.checksOn w.thread .isDisposed).1 ≠ .ok true

theorem not_latched_iff : ¬w.Latched p ↔ ∃ t c, w.Unlatched p t c := by
  constructor
  · intro h
    simp only [Latched, not_forall, Bool.not_eq_true] at h
    obtain ⟨⟨t, c, invalidated⟩, hp, rfl⟩ := h
    exact ⟨t, c, hp⟩
  · rintro ⟨t, c, hp⟩ latched
    cases latched _ hp

theorem latched_of_invalidated (hp : w.peers[p]? = some ⟨t, c, true⟩) : w.Latched p := by
  intro peer hp'
  cases hp.symm.trans hp'
  rfl

end World

/-- At every later moment a latched peer is latched. -/
theorem Moment.Goes.keeps_latched {m m' : Moment μ} (h : m.Goes m')
    (known : p < m.world.peers.length) (latched : m.world.Latched p) : m'.world.Latched p := by
  intro peer' hp'
  obtain ⟨invalidated, hp, stays⟩ := h.keeps_peer (List.getElem?_eq_getElem known)
  rw [hp] at hp'
  cases hp'
  exact stays (latched _ (List.getElem?_eq_getElem known))

namespace Peer

/-- Whoever asks through a latched peer is told so at once. -/
theorem isInvalidated_of_latched (h : w.Latched p) :
    isInvalidated p w = .done (.ok true) w := by
  unfold isInvalidated
  rw [Act.bind_apply, Act.get_apply]
  simp only [Progress.bind]
  cases hp : w.peers[p]? with
  | none => rfl
  | some peer => simp [h peer hp, Act.pure_apply]

theorem isInvalidated_of_not_latched (h : ¬w.Latched p) :
    isInvalidated p w = .done (.ok false) w := by
  obtain ⟨t, c, unlatched⟩ := World.not_latched_iff.1 h
  have hp : w.peers[p]? = some ⟨t, c, false⟩ := unlatched
  unfold isInvalidated
  rw [Act.bind_apply, Act.get_apply]
  simp only [Progress.bind, hp]
  rfl

/-- Whoever asks is told what is known. -/
theorem isInvalidated_run (p : PeerId) (w : World μ) :
    ∃ known, isInvalidated p w = .done (.ok known) w ∧ (known = true ↔ w.Latched p) := by
  by_cases after : w.Latched p
  · exact ⟨true, isInvalidated_of_latched after, by simp [after]⟩
  · exact ⟨false, isInvalidated_of_not_latched after, by simp [after]⟩

theorem isValid_of_latched (h : w.Latched p) : isValid p w = .done (.ok false) w := by
  unfold isValid
  rw [Act.bind_apply, Act.get_apply]
  simp only [Progress.bind]
  cases hp : w.peers[p]? with
  | none => rfl
  | some peer => simp [h peer hp, Act.pure_apply]

theorem query_of_latched (h : w.Latched p) (read : Inquiry (Except Unavailable α)) :
    query p read w = .done (.ok (.error .stalePeer)) w := by
  unfold query
  rw [Act.bind_apply, Act.get_apply]
  simp only [Progress.bind]
  cases hp : w.peers[p]? with
  | none => rfl
  | some peer => simp [h peer hp, Act.pure_apply]

/-! ### What sets the latch -/

/-- A peer that is latched. -/
def latch (peers : List Peer) (p : PeerId) : List Peer :=
  peers.modify p ({ · with invalidated := true })

theorem latch_eq_some_iff (peers : List Peer) (p q : PeerId) (peer : Peer) :
    (latch peers p)[q]? = some peer ↔ ∃ before, peers[q]? = some before ∧
      peer = if p = q then { before with invalidated := true } else before := by
  rw [latch, List.getElem?_modify]
  refine Option.map_eq_some_iff.trans (exists_congr fun before => and_congr_right fun _ => ?_)
  split <;> exact eq_comm

theorem latched_latch (p : PeerId) (w : World μ) (log : List (Thread × Event)) :
    ({ w with peers := latch w.peers p, log := log } : World μ).Latched p := by
  intro peer hp
  obtain ⟨before, -, rfl⟩ := (latch_eq_some_iff w.peers p p peer).1 hp
  rw [if_pos rfl]

theorem latch_of_latched (h : w.Latched p) : latch w.peers p = w.peers := by
  unfold latch
  rw [List.modify_eq_set_getElem?]
  cases hp : w.peers[p]? with
  | none => rfl
  | some peer =>
    obtain ⟨lt, e⟩ := List.getElem?_eq_some_iff.1 hp
    have same : { peer with invalidated := true } = w.peers[p] := by rw [e, ← h peer hp]
    show w.peers.set p { peer with invalidated := true } = _
    rw [same, List.set_getElem_self]

/-- Who remembers that a table is gone latches its peer, and does nothing else. -/
theorem invalidate_done (p : PeerId) (w : World μ) :
    ∃ log, invalidate p w = .done (.ok ()) { w with peers := latch w.peers p, log := log } := by
  by_cases latched : w.Latched p
  · refine ⟨w.log, ?_⟩
    rw [latch_of_latched latched]
    unfold invalidate
    simp only [Act.bind_apply, Act.get_apply, Progress.bind]
    cases hp : w.peers[p]? with
    | none => rfl
    | some peer => simp only [latched peer hp, if_true]; rfl
  · obtain ⟨t, c, hp⟩ := World.not_latched_iff.1 latched
    have hp' : w.peers[p]? = some ⟨t, c, false⟩ := hp
    unfold invalidate
    simp only [Act.bind_apply, Act.get_apply, Progress.bind, hp']
    exact ⟨(w.tell .peerInvalidated).log, rfl⟩

theorem invalidate_run (w : World μ) :
    ∃ w', w'.thread = w.thread ∧ invalidate p w = .done (.ok ()) w' ∧ w'.Latched p := by
  obtain ⟨log, done⟩ := invalidate_done p w
  exact ⟨{ w with peers := latch w.peers p, log := log }, rfl, done, latched_latch p w log⟩

/-- What is made of a reading that was to find out whether the table is there. -/
theorem isValid_of_unlatched (hp : w.Unlatched p t c) (there : w.table? t ≠ none) :
    isValid p w = (query p Reading.nothing >>= fun told => match told with
      | .ok _ => pure true
      | .error .stalePeer => pure false
      | .error _ => do return !(← isInvalidated p) : Act μ Bool) w := by
  have hp' : w.peers[p]? = some ⟨t, c, false⟩ := hp
  unfold isValid
  rw [Act.bind_apply, Act.get_apply]
  simp only [Progress.bind, hp', Bool.false_eq_true, if_false]
  exact congrFun (if_neg (by simpa using there)) w

/-- Whoever finds that the table was dropped latches the peer. -/
theorem isValid_of_dropped (hp : w.Unlatched p t c) (gone : w.table? t = none) :
    ∃ log, isValid p w = .done (.ok false) { w with peers := latch w.peers p, log := log } := by
  have hp' : w.peers[p]? = some ⟨t, c, false⟩ := hp
  obtain ⟨log, done⟩ := invalidate_done p w
  refine ⟨log, ?_⟩
  unfold isValid
  rw [Act.bind_apply, Act.get_apply]
  simp only [Progress.bind, hp', Bool.false_eq_true, if_false, gone, Option.isNone_none, if_true]
  rw [Act.bind_apply, done]
  rfl

theorem Ends.latched_of_invalidate {r : Except Panic Unit} (run : (invalidate p).Ends R w r w') :
    w'.Latched p := by
  obtain ⟨w₁, -, e, latched⟩ := invalidate_run (p := p) w
  have ends := run.ends
  rw [e] at ends
  exact ends.2 ▸ latched

/-- A reading that says that the table is gone has latched the peer. -/
theorem latched_of_query {read : Inquiry (Except Unavailable α)}
    (run : (query p read).Ends R w (.ok (.error .stalePeer)) w') : w'.Latched p := by
  have ends := run.ends
  by_cases latched : w.Latched p
  · rw [query_of_latched latched] at ends
    exact ends.2 ▸ latched
  · obtain ⟨t, c, hp⟩ := World.not_latched_iff.1 latched
    rw [query_of_unlatched hp] at ends
    obtain ⟨outcome, w₁, -, rest⟩ := Act.Ends.bind_ok ⟨ends⟩
    by_cases stale : flatten outcome = .error .stalePeer
    · rw [settle_of_stale stale] at rest
      obtain ⟨_, w₂, first, rest⟩ := rest.bind_ok
      obtain ⟨-, rfl⟩ := rest.pure
      exact Ends.latched_of_invalidate first
    · rw [settle_of_ne stale] at rest
      exact absurd (Except.ok.inj rest.pure.1).symm stale

/-- So has a question for validity that is answered with no. -/
theorem latched_of_isValid (run : (isValid p).Ends R w (.ok false) w') : w'.Latched p := by
  have ends := run.ends
  by_cases latched : w.Latched p
  · rw [isValid_of_latched latched] at ends
    exact ends.2 ▸ latched
  · obtain ⟨t, c, hp⟩ := World.not_latched_iff.1 latched
    by_cases dropped : w.table? t = none
    · obtain ⟨log, done⟩ := isValid_of_dropped hp dropped
      rw [done] at ends
      exact ends.2 ▸ latched_latch p w log
    · rw [isValid_of_unlatched hp dropped] at ends
      obtain ⟨told, w₁, first, rest⟩ := Act.Ends.bind_ok ⟨ends⟩
      cases told with
      | ok _ => cases rest.pure.1
      | error u =>
        cases u with
        | stalePeer =>
          obtain ⟨-, rfl⟩ := rest.pure
          exact latched_of_query first
        | _ =>
          obtain ⟨known, w₂, looks, rest⟩ := rest.bind_ok
          obtain ⟨no, rfl⟩ := rest.pure
          obtain ⟨latched, looked, after⟩ := isInvalidated_run p w₁
          have ends := looks.ends
          rw [looked] at ends
          obtain ⟨same, rfl⟩ := ends
          cases same
          exact after.1 (by simpa using no)

end Peer

/-! ### Calls that say whether they have latched the peer -/

/-- What is kept until a thread stops holds in particular where its work is over. -/
theorem Progress.Keeps.finding {I : World μ → Prop} {post : World μ → Except Panic α → Prop}
    {progress : Progress μ α} (h : progress.Keeps (.keeping I) post w) :
    progress.Keeps (.finding I) (fun w' r => I w' ∧ post w' r) w := by
  refine Progress.Keeps.mono (h.weaken id fun _ => ?_) fun w' r kept => ?_
  · trivial
  · obtain ⟨⟨_, along⟩, holds⟩ := kept
    exact ⟨along.leaves, holds⟩

/-- A hand-off of an inquiry leaves all latches as they are. -/
theorem handOff_keeps_unlatched {bound : Option Duration} {inquiry : Inquiry α}
    (h : ¬w.Latched p) : (handOff c bound (consult t inquiry)).KeepsFrom
      (.keeping fun w => ¬w.Latched p) w w (fun _ => True)
      (Act.Answered (fun _ => True) fun _ => True) := by
  have consults : ∀ {w₀ w : World μ}, w.thread = w₀.thread → ¬w.Latched p →
      (consult t inquiry).KeepsFrom (.keeping fun w => ¬w.Latched p) w₀ w (fun _ => True)
        fun _ => True := by
    intro w₀ w here unlatched
    unfold consult
    refine .get ?_
    split
    · exact .pure ⟨here, unlatched⟩ trivial
    · refine .modify ?_
      split
      · exact .pure ⟨here, unlatched⟩ trivial
      · exact .throw ⟨here, unlatched⟩ trivial
  refine .handOff ⟨fun found => found, fun _ _ along => along.leaves⟩ ⟨rfl, h⟩ (fun _ => ?_)
    (fun found _ => consults rfl found) fun _ _ => trivial
  exact consults rfl h

namespace Peer

/-- A reading latches the peer exactly if it says that the table is gone. -/
theorem query_latches_iff (read : Inquiry (Except Unavailable α)) (h : ¬w.Latched p) :
    (query p read w).Keeps (.finding fun w => ¬w.Latched p)
      (fun w' r => w'.Latched p ↔ r = .ok (.error .stalePeer)) w := by
  obtain ⟨t, c, unlatched⟩ := World.not_latched_iff.1 h
  have hp : w.peers[p]? = some ⟨t, c, false⟩ := unlatched
  rw [query_of_unlatched hp]
  refine Progress.Keeps.bind (handOff_keeps_unlatched h).progress.finding
    (fun w₀ w₁ outcome along post => ?_) fun w₁ e post => ?_
  · unfold settle
    generalize flatten outcome = told
    cases told with
    | ok a => exact ⟨along, by simpa using post.1⟩
    | error u =>
      cases u with
      | stalePeer =>
        obtain ⟨w₂, thread, latches, latched⟩ := invalidate_run (p := p) w₁
        dsimp only
        rw [Act.bind_apply, latches]
        exact ⟨⟨thread.trans along.thread, trivial⟩, by simp [latched]⟩
      | _ => exact ⟨along, by simpa using post.1⟩
  · simp [post.1]

/-- A question for validity latches the peer exactly if the answer is no. -/
theorem isValid_latches_iff (h : ¬w.Latched p) :
    (isValid p w).Keeps (.finding fun w => ¬w.Latched p)
      (fun w' r => w'.Latched p ↔ r = .ok false) w := by
  obtain ⟨t, c, hp⟩ := World.not_latched_iff.1 h
  by_cases dropped : w.table? t = none
  · obtain ⟨log, done⟩ := isValid_of_dropped hp dropped
    rw [done]
    exact ⟨⟨rfl, trivial⟩, by simp [latched_latch]⟩
  · rw [isValid_of_unlatched hp dropped]
    refine Progress.Keeps.bind (query_latches_iff Reading.nothing h)
      (fun w₀ w₁ told along post => ?_) fun w₁ e post => by simpa using post
    cases told with
    | ok _ => exact ⟨along, by simpa using post⟩
    | error u =>
      cases u with
      | stalePeer => exact ⟨along, by simpa using post⟩
      | _ =>
        have still : ¬w₁.Latched p := by simp [post]
        simp only [Act.bind_apply, isInvalidated_of_not_latched still, Progress.bind]
        exact ⟨along, by simpa using still⟩

end Peer

/-! ### Calls that find the table there -/

namespace World.Unlatched

variable {p' : PeerId} {peer : Peer}

theorem refers (h : w.Unlatched p t c) (hp : w.peers[p']? = some peer) (same : p' = p) :
    peer.table = t ∧ peer.context = c := by
  subst same
  cases hp.symm.trans h
  exact ⟨rfl, rfl⟩

theorem ne_of_latched (h : w.Unlatched p t c) (hp : w.peers[p']? = some peer)
    (latched : peer.invalidated = true) : p' ≠ p := by
  rintro rfl
  cases hp.symm.trans h
  cases latched

theorem ne_of_absent (h : w.Unlatched p t c) (nobody : w.peers[p']? = none) : p' ≠ p := by
  rintro rfl
  cases nobody.symm.trans h

/-- Another peer is latched. -/
theorem of_modify (h : w.Unlatched p t c) (other : p' ≠ p) (f : Peer → Peer) :
    ({ w with peers := w.peers.modify p' f } : World μ).Unlatched p t c := by
  show (w.peers.modify p' f)[p]? = _
  have there : w.peers[p]? = some ⟨t, c, false⟩ := h
  simp [other, there]

/-- A new peer is made. -/
theorem of_append (h : w.Unlatched p t c) (new : Peer) :
    ({ w with peers := w.peers ++ [new] } : World μ).Unlatched p t c :=
  (List.getElem?_append_left (List.getElem?_eq_some_iff.1 h).1).trans h

end World.Unlatched

/-- A peer is not latched, and its table shows itself where it is read. -/
def Conduct.shown (p : PeerId) (t : TableId) (c : ContextId) : Conduct μ where
  Finds w := w.Unlatched p t c ∧ (w.thread = .toolkit c → w.Shows t)
  Leaves _ w := w.Unlatched p t c

/-- Anything may come up, but one peer may not be latched. -/
def Scope.sparing (p : PeerId) (t : TableId) (c : ContextId) : Scope :=
  { any with
    Refers := fun p' t' c' => p' = p → t' = t ∧ c' = c
    Gone := (· ≠ p)
    Invalid := (· ≠ p) }

/-- A table that shows itself gives no reason to latch its peer. -/
theorem World.Shows.judges (h : w.Shows t) : (Scope.sparing p t c).Judges p t w := by
  obtain ⟨table, ht, stays⟩ := h
  refine ⟨fun gone => ?_, fun ht' disposed => ?_⟩
  · cases gone.symm.trans ht
  · cases ht'.symm.trans ht
    exact absurd disposed stays

theorem Scope.sparing_reads :
    (sparing p t c).Reads (Conduct.shown p t c : Conduct μ) (· = deadlineOverflow) where
  plain := ⟨fun found => found.1, fun _ _ along => along.leaves⟩
  refers along _ hp same := along.leaves.refers hp same
  latched along hp latched := along.leaves.ne_of_latched hp latched
  nobody along hp := along.leaves.ne_of_absent hp
  gone other := other
  asks along _ _ _ _ := ⟨⟨along.thread, along.leaves⟩, fun _ _ => trivial⟩
  invalidates along other _ _ := ⟨along.thread, along.leaves.of_modify other _⟩
  overruns _ _ _ _ _ := rfl

namespace Peer

/-- A reading that finds the table there does not say that it is gone, and latches nothing. -/
theorem query_of_shown {read : Inquiry (Except Unavailable α)} (honest : Reading.Honest read)
    (found : (Conduct.shown p t c).Finds w) :
    (query p read).KeepsFrom (.shown p t c) w w (· = deadlineOverflow) (· ≠ .error .stalePeer) := by
  refine (Scope.sparing_reads.query ⟨rfl, found.1⟩ trivial (fun hp here => ?_) (fun found here refers => ?_)
    (Reading.reports_of_honest honest) (Reading.steady_unknown _)).mono fun r told => ?_
  · obtain ⟨rfl, rfl⟩ := found.1.refers hp rfl
    exact (found.2 here).judges
  · obtain ⟨rfl, rfl⟩ := refers rfl
    exact (found.2 here).judges
  · rintro rfl
    exact told.1 rfl rfl

/-- Nor is such a table taken for invalid. -/
theorem isValid_of_shown (found : (Conduct.shown p t c).Finds w) (there : w.table? t ≠ none) :
    (isValid p).KeepsFrom (.shown p t c) w w (· = deadlineOverflow) (· = true) := by
  refine (Scope.sparing_reads.isValid ⟨rfl, found.1⟩ trivial (fun hp gone => ?_) (fun hp here => ?_)
    fun found here refers => ?_).mono fun valid told => ?_
  · obtain ⟨rfl, -⟩ := found.1.refers hp rfl
    exact absurd gone there
  · obtain ⟨rfl, rfl⟩ := found.1.refers hp rfl
    exact (found.2 here).judges
  · obtain ⟨rfl, rfl⟩ := refers rfl
    exact (found.2 here).judges
  · by_contra invalid
    exact told (by simpa using invalid) rfl

end Peer

/-! ### Tables that stay -/

/-- A table that does not say that it was disposed of. -/
def Question.Stays : (q : Question) → q.Answer → Prop
  | .isDisposed, disposed => disposed = false
  | _, _ => True

/-- A peer is not latched, and its table is there and stays. -/
structure World.Lives (p : PeerId) (t : TableId) (c : ContextId) (w : World μ) : Prop where
  /-- The peer is not latched. -/
  unlatched : w.Unlatched p t c
  /-- The table never says that it was disposed of, whatever it is asked. -/
  stays : ∃ table, w.table? t = some table ∧ table.Always Question.Stays

namespace World.Lives

variable {p' : PeerId} {t' : TableId} {table : Table}

theorem shows (h : w.Lives p t c) : w.Shows t := by
  obtain ⟨table, ht, stays⟩ := h.stays
  refine ⟨table, ht, fun disposed => ?_⟩
  cases stays.answers .new disposed

/-- Some table is asked. -/
theorem ask (h : w.Lives p t c) (ht : w.table? t' = some table) (checksOn : Bool) (now : Thread)
    (q : Question) : (w.setTable t' (some (table.ask checksOn now q).2)).Lives p t c := by
  refine ⟨h.unlatched, ?_⟩
  obtain ⟨table', ht', stays⟩ := h.stays
  rw [table?_setTable ht]
  by_cases same : t = t'
  · subst same
    cases ht.symm.trans ht'
    exact ⟨_, if_pos rfl, stays.ask checksOn now q⟩
  · exact ⟨table', by rw [if_neg same, ht'], stays⟩

end World.Lives

/-- A peer stays unlatched, and its table stays. -/
def Conduct.living (p : PeerId) (t : TableId) (c : ContextId) : Conduct μ :=
  .keeping (World.Lives p t c)

theorem Scope.open_sparing : (sparing p t c).Open := { open_any with }

theorem Scope.sparing_steps : (sparing p t c).Steps (Conduct.living p t c : Conduct μ) where
  plain := ⟨id, fun _ _ along => ⟨along.leaves.unlatched, along.leaves.stays⟩⟩
  refers along _ hp same := along.leaves.unlatched.refers hp same
  latched along hp latched := along.leaves.unlatched.ne_of_latched hp latched
  nobody along hp := along.leaves.unlatched.ne_of_absent hp
  gone other := other
  asks along _ _ ht q := ⟨⟨along.thread, along.leaves.ask ht _ _ q⟩, fun _ _ => trivial⟩
  invalidates along other _ _ :=
    ⟨along.thread, along.leaves.unlatched.of_modify other _, along.leaves.stays⟩
  overruns _ _ _ _ _ := trivial
  judges {_ _ p' t' _} along _ refers := by
    by_cases same : p' = p
    · obtain ⟨rfl, rfl⟩ := refers same
      subst same
      exact along.leaves.shows.judges
    · exact ⟨fun _ => same, fun _ _ => same⟩
  absent along hp gone := by
    rintro rfl
    obtain ⟨rfl, rfl⟩ := along.leaves.unlatched.refers hp rfl
    obtain ⟨table, ht, -⟩ := along.leaves.stays
    cases gone.symm.trans ht
  invalid _ _ _ _ := trivial
  adds along _ _ _ := ⟨along.thread, along.leaves.unlatched, along.leaves.stays⟩
  detaches along _ := ⟨along.thread, along.leaves.unlatched, along.leaves.stays⟩
  peers along new _ := ⟨along.thread, along.leaves.unlatched.of_append new, along.leaves.stays⟩
  bridges along _ := ⟨along.thread, along.leaves.unlatched, along.leaves.stays⟩

/-- Whatever is asked of nodes, trees and bridges, also of faulty tables, spares the peer of a table
that stays. -/
theorem Scope.sparing_request {request : Request} (kind : request.OfTable) :
    request.act.Keeps (.living p t c : Conduct μ) (fun _ => True) fun _ => True :=
  (open_sparing.deeds sparing_steps).request (open_sparing.admits kind fun _ _ _ => trivial)

/-! ### One-way latches -/

/-- A peer is a latch that calls set when they find the table gone, and that nothing resets. -/
structure Peer.IsLatch (μ : Type) (p : PeerId) : Prop where
  /-- Once the table was said to be invalid the peer is latched, -/
  invalid : ∀ {R : World μ → World μ → Prop} {w w' : World μ},
    (isValid p).Ends R w (.ok false) w' → w'.Latched p
  /-- and so it is once a reading, of whatever kind, has said that the table is gone. -/
  stale : ∀ {α : Type} {read : Inquiry (Except Unavailable α)} {R : World μ → World μ → Prop}
    {w w' : World μ}, (query p read).Ends R w (.ok (.error .stalePeer)) w' → w'.Latched p
  /-- It is latched from then on, -/
  stays : ∀ {m m' : Moment μ}, m.Goes m' → p < m.world.peers.length → m.world.Latched p →
    m'.world.Latched p
  /-- and whoever asks is told so at once: nothing is handed over, and nothing changes. -/
  answers : ∀ {w : World μ}, w.Latched p → isInvalidated p w = .done (.ok true) w ∧
    ∀ a : Adapter, a.peer = p → a.isValid w = .done (.ok false) w ∧
      ∀ {α : Type} (read : Inquiry (Except Unavailable α)),
        a.tryRead read w = .done (.ok (.error .stalePeer)) w
  /-- At no moment is it latched unless the table was dropped or has said that it was disposed of. -/
  sound : ∀ {m : Moment μ} {peer : Peer}, m.Lived → m.world.peers[p]? = some peer →
    m.world.Latched p → m.Lost peer.table
  /-- A reading that comes to anything else does not latch it, whatever its own hand-off has found, -/
  query_iff : ∀ {α : Type} (read : Inquiry (Except Unavailable α)) {w : World μ}, ¬w.Latched p →
    (query p read w).Keeps (.finding fun w => ¬w.Latched p)
      (fun w' r => w'.Latched p ↔ r = .ok (.error .stalePeer)) w
  /-- and a question for validity latches it only if the answer is no. -/
  isValid_iff : ∀ {w : World μ}, ¬w.Latched p →
    (isValid p w).Keeps (.finding fun w => ¬w.Latched p)
      (fun w' r => w'.Latched p ↔ r = .ok false) w
  /-- A reading does not say that the table is gone if its own hand-off does not find it so, -/
  query_shown : ∀ {α : Type} {read : Inquiry (Except Unavailable α)} {t : TableId} {c : ContextId}
    {w : World μ}, Reading.Honest read → (Conduct.shown p t c).Finds w →
    (query p read).KeepsFrom (.shown p t c) w w (· = deadlineOverflow) (· ≠ .error .stalePeer)
  /-- and the answer to a question for validity is yes if the table has not been dropped either. -/
  isValid_shown : ∀ {t : TableId} {c : ContextId} {w : World μ}, (Conduct.shown p t c).Finds w →
    w.table? t ≠ none →
    (isValid p).KeepsFrom (.shown p t c) w w (· = deadlineOverflow) (· = true)
  /-- So no request latches it while its table is there and does not say that it was disposed of. -/
  request : ∀ {t : TableId} {c : ContextId} {request : Request}, request.OfTable →
    request.act.Keeps (.living p t c : Conduct μ) (fun _ => True) fun _ => True

/-- Invalidation is a one-way latch that all nodes of a table share, and a sound one: it is set by a
call that has found the table dropped or disposed of, and by nothing else. A call is followed
through all that it may find on its way: while it waits, others may do whatever they like, and what
it has handed over may be done at any later time. -/
theorem invalidation_is_a_latch (p : PeerId) : Peer.IsLatch μ p where
  invalid := Peer.latched_of_isValid
  stale := Peer.latched_of_query
  stays h known latched := h.keeps_latched known latched
  answers latched := ⟨Peer.isInvalidated_of_latched latched, fun a own => by
    subst own
    exact ⟨Peer.isValid_of_latched latched, Peer.query_of_latched latched⟩⟩
  sound h hp latched := h.referred.lost hp (latched _ hp)
  query_iff read _ unlatched := Peer.query_latches_iff read unlatched
  isValid_iff := Peer.isValid_latches_iff
  query_shown := Peer.query_of_shown
  isValid_shown := Peer.isValid_of_shown
  request := Scope.sparing_request

/-- So it is once a table was dropped and someone has asked whether it is valid. -/
theorem invalidation_is_a_latch_dropped : ∃ w w' : World Unit,
    w.table? 0 = none ∧ ¬w.Latched 0 ∧
      (Peer.isValid 0).Ends (fun _ _ => False) w (.ok false) w' ∧ w'.Latched 0 ∧
      Peer.isValid 0 w' = .done (.ok false) w' := by
  let w : World Unit := { World.attached () (.client 0) (Context.start .default)
    (.grid (.ofGrid ⟨"", [], []⟩)) with tables := [none] }
  have run : ∃ w', (Peer.isValid 0).Ends (fun _ _ => False) w (.ok false) w' :=
    Act.Ends.of_value rfl
  obtain ⟨w', run⟩ := run
  have latched := (invalidation_is_a_latch 0).invalid run
  refine ⟨w, w', rfl, World.not_latched_iff.2 ⟨0, 0, rfl⟩, run, latched, ?_⟩
  exact (((invalidation_is_a_latch 0).answers latched).2 ⟨.ofRaw 0, .table (.ofRaw 0), none, 0, 0⟩ rfl).1

end TableAccess
