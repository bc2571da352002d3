import TableAccess.Proofs.Attaching
import TableAccess.Proofs.Latches
import TableAccess.Proofs.Sizes

/-!
# Tables are taken out whole

Who takes a table out of a tree takes out the nodes that belong to it, with their entries in the
index, and nothing else. Who prunes a tree does that with every table that fails a check, one after
the other. A check fails where the peer is latched, where the table was dropped, or where the context
says that the table is gone; a context that says nothing fails no check.

## The model

* `Tree.Without` — a tree without the nodes of some tables.
* `Check`, `Peer.Checks` — how a check of a peer comes out; `Peer.isValid_checks` — that a question
  for validity is such a check.
* `Prunes` — what is checked and taken out, in order.
* `Moment.RemovesExactly` — what taking out and pruning come to.
-/

namespace TableAccess

variable {μ α : Type} {R : World μ → World μ → Prop} {m : Moment μ} {w w' : World μ} {t : TreeId}
  {tree tree' : Tree} {a : Adapter} {k table : NodeKey} {p : PeerId} {c : ContextId}

/-! ### Trees without some tables -/

namespace Tree

variable {tree'' : Tree} {gone gone' : List NodeKey} {n n' : Nat}

/-- A tree without the nodes of some tables, which were so many. -/
structure Without (tree tree' : Tree) (gone : List NodeKey) (n : Nat) : Prop where
  /-- The nodes of all other tables are where they were, and only those. -/
  get? : ∀ k : NodeKey, tree'.get? k = (tree.get? k).filter (·.tableKey ∉ gone)
  /-- So are the entries of the index. -/
  index : ∀ i : Identity, tree'.index[i]? = if i.tableKey ∈ gone then none else tree.index[i]?
  /-- It is so many nodes less. -/
  size : tree'.size + n = tree.size
  /-- The tree is on the same context. -/
  context : tree'.context = tree.context
  /-- A bridge holds it if one did. -/
  alive : tree'.alive = tree.alive

theorem Without.refl (tree : Tree) : tree.Without tree [] 0 := by
  refine ⟨fun k => ?_, fun i => by simp, rfl, rfl, rfl⟩
  cases tree.get? k <;> simp [Option.filter]

theorem Without.trans (h : tree.Without tree' gone n) (h' : tree'.Without tree'' gone' n') :
    tree.Without tree'' (gone ++ gone') (n + n') where
  get? k := by
    rw [h'.get?, h.get?, Option.filter_filter]
    congr 1
    funext b
    simp
  index i := by
    rw [h'.index, h.index]
    by_cases first : i.tableKey ∈ gone <;> by_cases later : i.tableKey ∈ gone' <;>
      simp [first, later]
  size := by
    rw [← h.size, ← h'.size]
    omega
  context := h'.context.trans h.context
  alive := h'.alive.trans h.alive

/-- A table that is taken out is missing, and nothing else. -/
theorem Indexed.without_removeTable (h : tree.Indexed) (table : NodeKey) :
    tree.Without (tree.removeTable table) [table] (tree.keysOf table).length where
  get? k := by
    rw [h.get?_removeTable]
    congr 1
    funext b
    simp [Adapter.tableKey]
  index i := by
    apply Option.ext
    intro k
    rw [(h.removeTable table).index, h.get?_removeTable]
    by_cases belongs : i.tableKey = table
    · rw [if_pos (List.mem_singleton.2 belongs)]
      refine ⟨?_, fun none => by cases none⟩
      rintro ⟨b, hb, rfl⟩
      exact absurd belongs (by simpa using (Option.filter_eq_some_iff.1 hb).2)
    · rw [if_neg (by simpa using belongs), h.index]
      refine exists_congr fun b => and_congr_left fun same => ?_
      subst same
      rw [Option.filter_eq_some_iff]
      simp [belongs]
  size := h.size_removeTable table
  context := removeTable_context tree table
  alive := removeTable_alive tree table

end Tree

/-! ### Taking a table out -/

/-- Who takes a table out is told how many nodes belong to it. -/
theorem detachTable_run (ht : w.trees[t]? = some tree) (table : NodeKey) :
    ∃ log, detachTable t table w = .done (.ok (tree.keysOf table).length)
      { w with trees := w.trees.set t (tree.removeTable table), log := log } := by
  unfold detachTable
  rw [Act.bind_apply, getTree_run ht]
  simp only [Progress.bind, Act.modify_bind, World.modifyTree_eq ht]
  split <;> exact ⟨_, rfl⟩

/-- How a check of a peer comes out. -/
inductive Check where
  /-- The peer is latched. -/
  | latched
  /-- The table was dropped. -/
  | dropped
  /-- The context says whether the table is there. -/
  | answered (there : Bool)
  /-- The context says nothing about the table, for some cause; by then it is known to be gone, or
  not. -/
  | unanswered (cause : Unavailable) (known : Bool)
deriving DecidableEq, Repr

/-- The table passes. -/
def Check.valid : Check → Bool
  | .latched | .dropped => false
  | .answered there => there
  | .unanswered _ known => !known

/-- A context does what it is handed: the executing thread is its own, or it accepts tasks. -/
def World.Reaches (w : World μ) (c : ContextId) : Prop :=
  w.thread = .toolkit c ∨ ∃ context accepted, w.contexts[c]? = some context ∧
    context.accept w.tickets = .ok accepted

/-- Others leave a tree as it is. -/
def SparesTree (R : World μ → World μ → Prop) (t : TreeId) : Prop :=
  ∀ ⦃w w' : World μ⦄, R w w' → w'.trees[t]? = w.trees[t]?

theorem consult_done (b : TableId) (inquiry : Inquiry α) (w : World μ) :
    ∃ result tables, consult b inquiry w = .done result { w with tables := tables } := by
  unfold consult
  simp only [Act.bind_apply, Act.get_apply, Progress.bind]
  cases w.table? b with
  | none => exact ⟨_, w.tables, rfl⟩
  | some table =>
    dsimp only
    generalize inquiry.run w.checksOn w.thread table = outcome
    obtain ⟨result, after⟩ := outcome
    refine ⟨result.map some, (w.setTable b (some after)).tables, ?_⟩
    cases result <;> rfl

/-- What a hand-off of an inquiry comes to: the caller panics, the context says nothing, or it has done
what it was handed. The tree stays as it is if the others leave it so. -/
theorem handOff_ends {b : TableId} {inquiry : Inquiry α} {bound : Option Duration}
    {r : Except Panic (Except Unavailable (Option α))}
    (run : (handOff c bound (consult b inquiry)).Ends R w r w') :
    (SparesTree R t → w'.trees[t]? = w.trees[t]?) ∧
      (r = .error deadlineOverflow ∨ (∃ u, r = .ok (.error u) ∧ u ≠ .stalePeer) ∨
        ∃ outcome, r = .ok (.ok outcome) ∧ w.Reaches c) := by
  have ends := run.ends
  cases hc : w.contexts[c]? with
  | none =>
    rw [handOff_of_absent bound _ hc] at ends
    obtain ⟨rfl, rfl⟩ := ends
    exact ⟨fun _ => rfl, .inr (.inl ⟨_, rfl, nofun⟩)⟩
  | some context =>
    by_cases here : w.thread = .toolkit c
    · obtain ⟨result, tables, done⟩ := consult_done b inquiry (w.tell (.span .handOff))
      rw [handOff_of_here bound _ here hc] at ends
      unfold runInline at ends
      rw [Act.bind_apply, Act.attempt, done] at ends
      cases result with
      | ok a =>
        obtain ⟨rfl, rfl⟩ := ends
        exact ⟨fun _ => rfl, .inr (.inr ⟨a, rfl, .inl here⟩)⟩
      | error p =>
        obtain ⟨rfl, rfl⟩ := ends
        exact ⟨fun _ => rfl, .inr (.inl ⟨_, rfl, nofun⟩)⟩
    · cases ok : context.accept w.tickets with
      | error refusal =>
        rw [handOff_of_refused bound here _ hc ok] at ends
        cases refusal <;>
        · obtain ⟨rfl, rfl⟩ := ends
          exact ⟨fun _ => rfl, .inr (.inl ⟨_, rfl, nofun⟩)⟩
      | ok accepted =>
        by_cases fits : (bound.getD context.timeout).FitsClock w.clock
        · obtain ⟨next, calls, answered, untold⟩ := handOff_calls bound here (consult b inquiry) hc ok fits
          rw [calls] at ends
          obtain ⟨answer, later, between, ends⟩ := ends
          have spared : SparesTree R t → later.trees[t]? = w.trees[t]? := fun others => (others between :)
          cases answer with
          | none =>
            obtain ⟨e, told⟩ := untold later
            rw [told] at ends
            obtain ⟨rfl, rfl⟩ := ends
            exact ⟨spared, .inr (.inl ⟨_, rfl, nofun⟩)⟩
          | some result =>
            rw [answered] at ends
            obtain ⟨rfl, rfl⟩ := ends
            refine ⟨spared, .inr ?_⟩
            cases result with
            | ok a => exact .inr ⟨a, rfl, .inr ⟨context, accepted, hc, ok⟩⟩
            | error p => exact .inl ⟨_, rfl, nofun⟩
        · rw [handOff_overruns bound here _ hc ok fits] at ends
          obtain ⟨later, between, rfl, rfl⟩ := ends
          have spared : SparesTree R t → later.trees[t]? = w.trees[t]? := fun others => (others between :)
          exact ⟨spared, .inl rfl⟩

namespace Peer

/-- A check of a peer that begins in one world comes out in another. -/
inductive Checks (R : World μ → World μ → Prop) (p : PeerId) (w : World μ) :
    Check → World μ → Prop where
  /-- The peer is latched, and nothing is done. -/
  | latched (h : w.Latched p) : Checks R p w .latched w
  /-- The table was dropped, and the peer is latched for that. -/
  | dropped {b : TableId} {c : ContextId} (hp : w.Unlatched p b c) (gone : w.table? b = none)
      (log : List (Thread × Event)) :
    Checks R p w .dropped { w with peers := w.peers.modify p ({ · with invalidated := true }), log := log }
  /-- The context has been reached, and says that the table is there. -/
  | there {b : TableId} {c : ContextId} {w' : World μ} (hp : w.Unlatched p b c)
      (kept : w.table? b ≠ none) (reaches : w.Reaches c)
      (run : (query p Reading.nothing).Ends R w (.ok (.ok ())) w') :
    Checks R p w (.answered true) w'
  /-- The context has been reached, and says that the table is gone; the peer is latched for that. -/
  | gone {b : TableId} {c : ContextId} {w' : World μ} (hp : w.Unlatched p b c)
      (kept : w.table? b ≠ none) (reaches : w.Reaches c)
      (run : (query p Reading.nothing).Ends R w (.ok (.error .stalePeer)) w')
      (after : w'.Latched p) : Checks R p w (.answered false) w'
  /-- The context says nothing about the table. -/
  | unanswered {b : TableId} {c : ContextId} {w' : World μ} {u : Unavailable} {known : Bool}
      (hp : w.Unlatched p b c) (kept : w.table? b ≠ none)
      (run : (query p Reading.nothing).Ends R w (.ok (.error u)) w') (silent : u ≠ .stalePeer)
      (after : known = true ↔ w'.Latched p) : Checks R p w (.unanswered u known) w'

/-- What a reading comes to: its caller panics, or says why there is no answer, or has reached the
context. -/
theorem query_ends {b : TableId} {read : Inquiry (Except Unavailable α)}
    {r : Except Panic (Except Unavailable α)} (hp : w.Unlatched p b c)
    (run : (query p read).Ends R w r w') :
    (SparesTree R t → w'.trees[t]? = w.trees[t]?) ∧
      (r = .error deadlineOverflow ∨ (∃ u, r = .ok (.error u) ∧ u ≠ .stalePeer) ∨
        ∃ told, r = .ok told ∧ w.Reaches c) := by
  have handed : (handOff c none (consult b (Reading.ofLive read)) >>= settle p).Ends R w r w' :=
    ⟨query_of_unlatched hp read ▸ run.ends⟩
  rcases handed.bind with ⟨outcome, w₁, first, rest⟩ | ⟨e, rfl, first⟩
  · obtain ⟨spared, came⟩ := handOff_ends (t := t) first
    by_cases stale : flatten outcome = .error .stalePeer
    · obtain ⟨log, done⟩ := invalidate_done p w₁
      rw [settle_of_stale stale] at rest
      have ends := rest.ends
      rw [Act.bind_apply, done] at ends
      obtain ⟨rfl, rfl⟩ := ends
      refine ⟨spared, .inr (.inr ⟨_, rfl, ?_⟩)⟩
      rcases came with e | ⟨u, e, other⟩ | ⟨found, -, reaches⟩
      · cases e
      · cases e
        exact absurd (Except.error.inj stale) other
      · exact reaches
    · rw [settle_of_ne stale] at rest
      obtain ⟨rfl, rfl⟩ := rest.pure
      refine ⟨spared, .inr ?_⟩
      rcases came with e | ⟨u, e, other⟩ | ⟨found, e, reaches⟩
      · cases e
      · cases e
        exact .inl ⟨u, rfl, other⟩
      · exact .inr ⟨_, rfl, reaches⟩
  · obtain ⟨spared, e | ⟨u, e, -⟩ | ⟨found, e, -⟩⟩ := handOff_ends (t := t) first
    · exact ⟨spared, .inl (congrArg Except.error (Except.error.inj e))⟩
    · cases e
    · cases e

/-- A check leaves a tree as it is if the others do. -/
theorem Checks.spares {check : Check} (h : Checks R p w check w') (others : SparesTree R t) :
    w'.trees[t]? = w.trees[t]? := by
  cases h with
  | latched | dropped => rfl
  | there hp _ _ run | gone hp _ _ run | unanswered hp _ run => exact (query_ends hp run).1 others

end Peer

/-! ### Pruning -/

/-- Tables are checked one after the other, and one that fails is taken out before the next one is
checked; so many nodes were taken out in all. -/
inductive Prunes (R : World μ → World μ → Prop) (t : TreeId) :
    List (Adapter × Check) → World μ → Nat → World μ → Prop where
  /-- No table is left to be checked. -/
  | done (w : World μ) : Prunes R t [] w 0 w
  /-- A table passes. -/
  | passes {a : Adapter} {check : Check} {rest : List (Adapter × Check)} {w w₁ w' : World μ} {n : Nat}
      (asked : (Peer.isValid a.peer).Ends R w (.ok true) w₁) (checks : Peer.Checks R a.peer w check w₁)
      (valid : check.valid = true) (others : Prunes R t rest w₁ n w') :
    Prunes R t ((a, check) :: rest) w n w'
  /-- A table fails, and is taken out. -/
  | fails {a : Adapter} {check : Check} {rest : List (Adapter × Check)} {w w₁ w₂ w' : World μ}
      {k n : Nat} (asked : (Peer.isValid a.peer).Ends R w (.ok false) w₁)
      (checks : Peer.Checks R a.peer w check w₁) (invalid : check.valid = false)
      (takes : detachTable t a.key w₁ = .done (.ok k) w₂) (others : Prunes R t rest w₂ n w') :
    Prunes R t ((a, check) :: rest) w (k + n) w'

/-- Every table is checked. -/
theorem Prunes.checks {checks : List (Adapter × Check)} {n : Nat} (h : Prunes R t checks w n w') :
    ∀ x ∈ checks, ∃ w₁ w₂, Peer.Checks R x.1.peer w₁ x.2 w₂ := by
  induction h with
  | done w => simp
  | passes _ checks _ _ ih | fails _ checks _ _ _ ih =>
    exact List.forall_mem_cons.2 ⟨⟨_, _, checks⟩, ih⟩

/-- The tables that fail. -/
def failing (checks : List (Adapter × Check)) : List NodeKey :=
  (checks.filter fun x => !x.2.valid).map fun x => x.1.key

/-- As long as the others leave a tree as it is, all that becomes of it is that the tables that fail
are missing. -/
theorem Prunes.without {checks : List (Adapter × Check)} {n : Nat} (h : Prunes R t checks w n w')
    (others : SparesTree R t) (ht : w.trees[t]? = some tree) (indexed : tree.Indexed) :
    ∃ tree', w'.trees[t]? = some tree' ∧ tree.Without tree' (failing checks) n := by
  induction h generalizing tree with
  | done w => exact ⟨tree, ht, .refl tree⟩
  | passes _ checks valid _ ih =>
    obtain ⟨tree', ht', without⟩ := ih ((checks.spares others).trans ht) indexed
    refine ⟨tree', ht', ?_⟩
    rw [failing, List.filter_cons_of_neg (by simp [valid])]
    exact without
  | @fails a check rest w w₁ w₂ w' k n _ checks invalid takes _ ih =>
    have ht₁ := (checks.spares others).trans ht
    obtain ⟨log, takes'⟩ := detachTable_run ht₁ a.key
    obtain ⟨e, rfl⟩ := Progress.done.inj (takes.symm.trans takes')
    cases e
    have ht₂ : (w₁.trees.set t (tree.removeTable a.key))[t]? = some (tree.removeTable a.key) :=
      List.getElem?_set_self (List.getElem?_eq_some_iff.1 ht₁).1
    obtain ⟨tree', ht', without⟩ := ih ht₂ (indexed.removeTable a.key)
    refine ⟨tree', ht', ?_⟩
    rw [failing, List.filter_cons_of_pos (by simp [invalid])]
    exact (indexed.without_removeTable a.key).trans without

namespace World

/-- The table of a peer is missing: the peer is latched, or the table was dropped. -/
def Misses (w : World μ) (p : PeerId) : Prop :=
  ∀ peer, w.peers[p]? = some peer → peer.invalidated = true ∨ w.table? peer.table = none

theorem misses_of_unlatched {b : TableId} (hp : w.Unlatched p b c) :
    w.Misses p ↔ w.table? b = none := by
  constructor
  · exact fun misses => (misses _ hp).resolve_left nofun
  · rintro gone peer hp'
    cases hp.symm.trans hp'
    exact .inr gone

end World

/-- A check that fails without an answer finds the table missing, or others have latched the peer
meanwhile. -/
theorem Peer.Checks.misses {check : Check} (h : Checks R p w check w') (invalid : check.valid = false)
    (silent : ∀ there, check ≠ .answered there) :
    w.Misses p ∨ (∃ u, check = .unanswered u true) ∧ w'.Latched p := by
  cases h with
  | latched h => exact .inl fun peer hp => .inl (h peer hp)
  | dropped hp gone => exact .inl ((World.misses_of_unlatched hp).2 gone)
  | there | gone => exact absurd rfl (silent _)
  | @unanswered b c w' u known hp kept run other after =>
    have known : known = true := by simpa [Check.valid] using invalid
    exact .inr ⟨⟨u, by rw [known]⟩, after.1 known⟩

end TableAccess
