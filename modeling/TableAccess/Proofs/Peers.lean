import TableAccess.Proofs.Nodes
import TableAccess.Proofs.Tables

/-!
# What peers keep

A peer refers to its table and its context for good. It is invalidated only after its table was
dropped or said that it was disposed of, and neither is ever undone.

## The model

* `Moment.Lost` — a table is gone.
* `Goes.keeps_peer`, `Goes.lost` — what stays with peers and tables.
* `Moment.Referred` — what is known of the peers at a moment.
* `Lived.valid_of_live` — the peers of a table that is there are not invalidated.
-/

namespace TableAccess.Moment

variable {μ : Type} {m m' : Moment μ} {t : TableId} {p : PeerId} {peer : Peer} {a : Adapter}

/-- A table was dropped, or said that it was disposed of. -/
def Lost (m : Moment μ) (t : TableId) : Prop :=
  (m.world.table? t = none ∧ t < m.world.tables.length) ∨ .foundDisposed t ∈ m.past

theorem Step.dropped (h : m.Step m') (gone : m.world.table? t = none)
    (there : t < m.world.tables.length) : m'.world.table? t = none := by
  cases h with
  | tables h =>
    have kept : ∀ {t' : TableId} {table : Table} (new : Option Table),
        m.world.table? t' = some table → ((m.world.tables.set t' new)[t]?).join = none := by
      intro t' table new ht
      rw [List.getElem?_set_ne]
      · exact gone
      · rintro rfl
        rw [gone] at ht
        cases ht
    cases h with
    | create | createOther =>
      show ((_ ++ _)[t]?).join = none
      rw [List.getElem?_append_left there]
      exact gone
    | drop t' =>
      show ((m.world.tables.set t' none)[t]?).join = none
      rw [List.getElem?_set]
      split
      · split <;> rfl
      · exact gone
    | bind ht | edit ht | dispose ht | ask ht | askDisposed ht => exact kept _ ht
  | _ => exact gone

/-- What is gone stays gone. -/
theorem Step.lost (h : m.Step m') (lost : m.Lost t) : m'.Lost t := by
  rcases lost with ⟨gone, there⟩ | found
  · exact .inl ⟨h.dropped gone there, Nat.lt_of_lt_of_le there h.tables_length⟩
  · exact .inr (h.past.subset found)

theorem Goes.lost (h : m.Goes m') (lost : m.Lost t) : m'.Lost t :=
  h.keeps lost fun step lost => step.lost lost

/-- A peer that is lost to a deed lost its table before. -/
theorem Step.keeps_peer (h : m.Step m') (hp : m.world.peers[p]? = some peer) :
    ∃ invalidated, m'.world.peers[p]? = some { peer with invalidated := invalidated } ∧
      (invalidated = peer.invalidated ∨ invalidated = true ∧
        (m.world.table? peer.table = none ∨ .foundDisposed peer.table ∈ m.past)) := by
  cases h with
  | trees h =>
    cases h with
    | refer | attach =>
      obtain ⟨lt, -⟩ := List.getElem?_eq_some_iff.1 hp
      exact ⟨peer.invalidated, by simp [List.getElem?_append_left lt, hp], .inl rfl⟩
    | @invalidate p' peer' hp' gone =>
      by_cases here : p' = p
      · subst here
        rw [hp] at hp'
        cases hp'
        exact ⟨true, by simp [hp], .inr ⟨rfl, gone⟩⟩
      · exact ⟨peer.invalidated, by simp [here, hp], .inl rfl⟩
    | _ => exact ⟨peer.invalidated, hp, .inl rfl⟩
  | _ => exact ⟨peer.invalidated, hp, .inl rfl⟩

/-- A peer keeps its table and its context, and stays invalidated. -/
theorem Goes.keeps_peer (h : m.Goes m') (hp : m.world.peers[p]? = some peer) :
    ∃ invalidated, m'.world.peers[p]? = some { peer with invalidated := invalidated } ∧
      (peer.invalidated = true → invalidated = true) := by
  refine h.keeps (P := fun m' => ∃ invalidated,
    m'.world.peers[p]? = some { peer with invalidated := invalidated } ∧
      (peer.invalidated = true → invalidated = true)) ⟨_, hp, id⟩ fun step ih => ?_
  obtain ⟨before, hp, still⟩ := ih
  obtain ⟨after, hp', same | ⟨invalid, -⟩⟩ := step.keeps_peer hp
  · exact ⟨after, hp', fun h => same.trans (still h)⟩
  · exact ⟨after, hp', fun _ => invalid⟩

/-- The peer at a place was made with this deed, or was there before. -/
theorem Step.new_peer (h : m.Step m') (hp : m'.world.peers[p]? = some peer) :
    (∃ before, m.world.peers[p]? = some before) ∨
      p = m.world.peers.length ∧ peer.table < m.world.tables.length ∧
        peer.invalidated = false := by
  by_cases known : p < m.world.peers.length
  · exact .inl ⟨_, List.getElem?_eq_getElem known⟩
  · refine .inr ?_
    have before : m.world.peers.length ≤ p := Nat.le_of_not_lt known
    have last : ∀ {new : Peer}, (m.world.peers ++ [new])[p]? = some peer →
        p = m.world.peers.length ∧ peer = new := by
      intro new hp
      obtain ⟨lt, e⟩ := List.getElem?_eq_some_iff.1 hp
      rw [List.length_append, List.length_singleton] at lt
      obtain rfl : p = m.world.peers.length := Nat.le_antisymm (Nat.le_of_lt_succ lt) before
      rw [List.getElem_concat_length rfl] at e
      exact ⟨rfl, e.symm⟩
    have absurd_old : ∀ {peers : List Peer}, peers.length = m.world.peers.length →
        peers[p]? = some peer → False := by
      intro peers same hp
      have lt := (List.getElem?_eq_some_iff.1 hp).1
      exact absurd (same ▸ lt) (Nat.not_lt.2 before)
    cases h with
    | trees h =>
      cases h with
      | refer there =>
        obtain ⟨here, rfl⟩ := last hp
        exact ⟨here, there, rfl⟩
      | attach ht there =>
        obtain ⟨here, rfl⟩ := last hp
        exact ⟨here, there, rfl⟩
      | invalidate => exact (absurd_old (List.length_modify _ _ _) hp).elim
      | _ => exact (absurd_old rfl hp).elim
    | _ => exact (absurd_old rfl hp).elim

/-- What is known of the peers. -/
structure Referred (m : Moment μ) : Prop where
  /-- Their tables were made. -/
  known : ∀ {p : PeerId} {peer : Peer}, m.world.peers[p]? = some peer →
    peer.table < m.world.tables.length
  /-- They are invalidated only when their tables are gone. -/
  lost : ∀ {p : PeerId} {peer : Peer}, m.world.peers[p]? = some peer → peer.invalidated = true →
    m.Lost peer.table
  /-- The peer of a node reads on the context of the tree. -/
  context : ∀ {a : Adapter} {tree : Tree}, .made a ∈ m.past → m.world.trees[a.tree]? = some tree →
    ∃ peer, m.world.peers[a.peer]? = some peer ∧ peer.context = tree.context

theorem referred_first (memory : μ) : (first memory).Referred := by
  refine ⟨?_, ?_, ?_⟩ <;> simp [first, World.empty]

theorem Step.tree_context {t : TreeId} {tree tree' : Tree} (h : m.Step m')
    (ht : m.world.trees[t]? = some tree) (ht' : m'.world.trees[t]? = some tree') :
    tree'.context = tree.context := by
  cases h.change ht' with
  | planted c new =>
    rw [new] at ht
    cases ht
  | kept same nodes index context =>
    rw [ht] at same
    cases same
    exact context
  | attached same next identity parent here e =>
    rw [ht] at same
    cases same
    rw [e]
    rfl
  | made same next free known there shared peer parent isParent here e =>
    rw [ht] at same
    cases same
    rw [e]
    rfl
  | detached same table e =>
    rw [ht] at same
    cases same
    rw [e, Tree.removeTable_context]

theorem Referred.step (h : m.Referred) (keyed : m.Keyed) (step : m.Step m') : m'.Referred where
  known {p peer} hp := by
    refine Nat.lt_of_lt_of_le ?_ step.tables_length
    rcases step.new_peer hp with ⟨before, hb⟩ | ⟨-, known, -⟩
    · obtain ⟨invalidated, hp', -⟩ := step.keeps_peer hb
      rw [hp] at hp'
      cases hp'
      show before.table < _
      exact h.known hb
    · exact known
  lost {p peer} hp invalid := by
    rcases step.new_peer hp with ⟨before, hb⟩ | ⟨-, -, valid⟩
    · obtain ⟨invalidated, hp', cause⟩ := step.keeps_peer hb
      rw [hp] at hp'
      cases hp'
      refine step.lost ?_
      show m.Lost before.table
      rcases cause with same | ⟨-, gone | found⟩
      · exact h.lost hb (same.symm.trans invalid)
      · exact .inl ⟨gone, h.known hb⟩
      · exact .inr found
    · rw [invalid] at valid
      cases valid
  context {a tree'} ha ht' := by
    have old : ∀ {b : Adapter} {tree}, .made b ∈ m.past → b.tree = a.tree → b.peer = a.peer →
        m.world.trees[a.tree]? = some tree →
        ∃ peer, m'.world.peers[a.peer]? = some peer ∧ peer.context = tree'.context := by
      intro b tree hb here shared ht
      obtain ⟨peer, hp, context⟩ := h.context hb (here ▸ ht)
      obtain ⟨invalidated, hp', -⟩ := step.keeps_peer hp
      exact ⟨{ peer with invalidated := invalidated }, shared ▸ hp',
        context.trans (step.tree_context ht ht').symm⟩
    rcases step.born ha with made | ⟨born, -⟩
    · exact old made rfl rfl (List.getElem?_eq_getElem (keyed.planted made))
    · cases born with
      | @table tree peer ht next identity hp context =>
        exact ⟨peer, hp, context.trans (step.tree_context ht ht').symm⟩
      | part ht next known there same shared => exact old known there shared.symm ht

/-- What is known of the peers, at every moment. -/
theorem Lived.referred (h : m.Lived) : m.Referred := by
  refine (h.keeps (P := fun m => m.Lived ∧ m.Referred) (fun memory => ?_) fun step ih => ?_).2
  · exact ⟨⟨memory, .refl _⟩, referred_first memory⟩
  · exact ⟨ih.1.goes step.goes, ih.2.step ih.1.keyed step⟩

/-- The peers of an editable table that is there are not invalidated. -/
theorem Lived.valid_of_live {g : GridTable} (h : m.Lived) (hp : m.world.peers[p]? = some peer)
    (ht : m.world.table? peer.table = some (.grid g)) (live : g.disposed = false) :
    peer.invalidated = false := by
  rw [← Bool.not_eq_true]
  intro invalid
  rcases h.referred.lost hp invalid with ⟨gone, -⟩ | found
  · rw [gone] at ht
    cases ht
  · rw [h.filed.disposed ht found] at live
    cases live

end TableAccess.Moment
