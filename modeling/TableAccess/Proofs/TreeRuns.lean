import TableAccess.Proofs.Nodes
import TableAccess.Proofs.Runs
import TableAccess.Update

/-!
# Runs over a tree

As long as nothing is taken out of a tree, a run leaves every node in it where it was: the others leave
it there while the act has stopped, and the act itself does no more than add nodes. So a node that a
run has found or made is still there when the run is over.

## The model

* `World.Retains` — a tree still has its nodes in a later world, and its index agrees with them.
* `Act.Retains` — every run of an act leaves it so.
* `World.Holds` — a node is in a tree.
* `Act.Finds` — what every run finds or makes stands for an identity, and is in the tree.
-/

namespace TableAccess

variable {μ α β : Type} {R : World μ → World μ → Prop} {w w' w'' : World μ} {t : TreeId}
  {a : Adapter} {i : Identity} {k : NodeKey}

/-! ### What stays in a tree -/

namespace World

/-- There is a tree, and it is coherent. -/
def Sound (w : World μ) (t : TreeId) : Prop :=
  ∃ tree, w.trees[t]? = some tree ∧ tree.Coherent t

/-- A node is in a tree, which is coherent. -/
def Holds (w : World μ) (t : TreeId) (a : Adapter) : Prop :=
  ∃ tree, w.trees[t]? = some tree ∧ tree.Coherent t ∧ tree.get? a.key = some a

/-- A tree still has its nodes in a later world, and is still coherent. -/
structure Retains (t : TreeId) (w w' : World μ) : Prop where
  /-- The nodes are there, and the tree is coherent if it was. -/
  stays : ∀ {tree : Tree}, w.trees[t]? = some tree → tree.Coherent t → ∃ tree',
    w'.trees[t]? = some tree' ∧ tree'.Coherent t ∧
      ∀ {k a}, tree.get? k = some a → tree'.get? k = some a

theorem Holds.sound (h : w.Holds t a) : w.Sound t :=
  h.imp fun _ ⟨ht, coherent, _⟩ => ⟨ht, coherent⟩

theorem Holds.here (h : w.Holds t a) : a.tree = t := by
  obtain ⟨tree, -, coherent, stored⟩ := h
  exact coherent.here stored

/-- The node of a table is the table's. -/
theorem Holds.own {table : NodeKey} (h : w.Holds t a) (isTable : a.identity = .table table) :
    a.key = table := by
  obtain ⟨tree, -, coherent, stored⟩ := h
  rcases coherent.parent stored with ⟨-, own⟩ | ⟨p, -, isParent⟩
  · rw [isTable] at own
    exact (Identity.table.inj own).symm
  · exact absurd isTable isParent.ne_table

theorem Holds.eq_of_key {b : Adapter} (ha : w.Holds t a) (hb : w.Holds t b)
    (same : a.key = b.key) : a = b := by
  obtain ⟨tree, ht, -, stored⟩ := ha
  obtain ⟨tree', ht', -, stored'⟩ := hb
  rw [ht] at ht'
  cases ht'
  rw [same] at stored
  exact Option.some.inj (stored.symm.trans stored')

theorem Retains.of_trees (same : w'.trees[t]? = w.trees[t]?) : Retains t w w' :=
  ⟨fun ht coherent => ⟨_, same.trans ht, coherent, fun ha => ha⟩⟩

theorem Retains.refl (w : World μ) : Retains t w w := .of_trees rfl

theorem Retains.trans (h : Retains t w w') (h' : Retains t w' w'') : Retains t w w'' := by
  refine ⟨fun {tree} ht coherent => ?_⟩
  obtain ⟨tree', ht', coherent', stays⟩ := h.stays ht coherent
  obtain ⟨tree'', ht'', coherent'', stays'⟩ := h'.stays ht' coherent'
  exact ⟨tree'', ht'', coherent'', fun ha => stays' (stays ha)⟩

theorem Retains.sound (h : Retains t w w') (sound : w.Sound t) : w'.Sound t := by
  obtain ⟨tree, ht, coherent⟩ := sound
  obtain ⟨tree', ht', coherent', -⟩ := h.stays ht coherent
  exact ⟨tree', ht', coherent'⟩

theorem Retains.holds (h : Retains t w w') (holds : w.Holds t a) : w'.Holds t a := by
  obtain ⟨tree, ht, coherent, stored⟩ := holds
  obtain ⟨tree', ht', coherent', stays⟩ := h.stays ht coherent
  exact ⟨tree', ht', coherent', stays stored⟩

/-- A tree gets one more node. -/
theorem Retains.add {tree : Tree} (ht : w.trees[t]? = some tree)
    (next : tree.nodes.nextKey? = some a.key) (free : tree.find? a.identity = none)
    (here : a.tree = t) {parent : NodeKey} (isParent : tree.IsParent a.identity parent)
    (parent_eq : a.parent = some parent) : Retains t w (w.modifyTree t (·.add a)) := by
  refine ⟨fun {tree'} ht' coherent => ?_⟩
  rw [ht] at ht'
  cases ht'
  refine ⟨tree.add a, by simp [modifyTree, ht], ?_, fun {k b} stored => ?_⟩
  · exact coherent.add next free here (.inr ⟨parent, parent_eq, isParent⟩)
  · exact coherent.indexed.get?_add_of_some next stored

end World

/-! ### Acts that leave a tree its nodes -/

/-- Every run of an act leaves a tree its nodes. -/
structure Act.Retains (R : World μ → World μ → Prop) (t : TreeId) (act : Act μ α) : Prop where
  /-- A run that ends leaves it so. -/
  run : ∀ {w w' : World μ} {r : Except Panic α}, act.Ends R w r w' → World.Retains t w w'

namespace Act.Retains

variable {act : Act μ α}

theorem pure (a : α) : (pure a : Act μ α).Retains R t := ⟨fun run => .of_trees (by rw [run.pure.2])⟩

theorem throw (p : Panic) : (throw p : Act μ α).Retains R t :=
  ⟨fun run => .of_trees (by rw [run.throw.2])⟩

theorem bind {f : α → Act μ β} (h : act.Retains R t) (rest : ∀ a, (f a).Retains R t) :
    (act >>= f).Retains R t := by
  refine ⟨fun run => ?_⟩
  rcases run.bind with ⟨a, w₁, first, next⟩ | ⟨e, -, first⟩
  · exact (h.run first).trans ((rest a).run next)
  · exact h.run first

theorem get {f : World μ → Act μ α} (h : ∀ w, (f w).Retains R t) :
    (MonadState.get >>= f).Retains R t := ⟨fun {w} _ _ run => (h w).run run.get⟩

theorem modify {f : World μ → World μ} (h : ∀ w, World.Retains t w (f w)) :
    (modify f : Act μ PUnit).Retains R t := by
  refine ⟨fun {w} _ _ run => ?_⟩
  obtain ⟨-, rfl⟩ := run.ends
  exact h w

theorem tell (e : Event) : (Act.tell e : Act μ Unit).Retains R t := modify fun _ => .of_trees rfl

theorem attempt (h : act.Retains R t) : act.attempt.Retains R t := by
  refine ⟨fun run => ?_⟩
  obtain ⟨result, -, run⟩ := run.attempt
  exact h.run run

theorem makeRoom (item : Room.Item) (count : Nat) :
    (Act.makeRoom item count : Act μ Unit).Retains R t := by
  unfold Act.makeRoom
  split
  · exact pure ()
  · exact throw _

theorem each {items : List β} {act : β → Act μ α} (h : ∀ b, (act b).Retains R t) :
    (each items act).Retains R t := by
  induction items with
  | nil => exact pure []
  | cons b rest ih =>
    rw [each_cons]
    exact (h b).bind fun _ => ih.bind fun _ => pure _

variable (others : ∀ {w w' : World μ}, R w w' → World.Retains t w w')

include others

theorem call (c : ContextId) (ticket : Ticket) (bound : Duration) :
    (call c ticket bound act).Retains R t := by
  refine ⟨fun run => ?_⟩
  obtain ⟨answer, later, between, -, rfl⟩ := run.ends
  exact others between

theorem leave {task : Act μ Unit} (c : ContextId) (ticket : Ticket) :
    (leave c ticket task).Retains R t := by
  refine ⟨fun run => ?_⟩
  obtain ⟨later, between, -, rfl⟩ := run.ends
  exact others between

end Act.Retains

/-! ### Readings -/

section Readings

theorem enqueue_retains (c : ContextId) : (enqueue c : Act μ _).Retains R t := by
  unfold enqueue
  refine .get ?_
  intro w
  split
  · exact .pure _
  · split
    · exact .pure _
    · exact (Act.Retains.tell _).bind fun _ => .pure _
    · refine Act.Retains.bind (.modify ?_) fun _ => .pure _
      intro _
      exact .of_trees rfl

theorem consult_retains (table : TableId) (inquiry : Inquiry α) :
    (consult table inquiry : Act μ _).Retains R t := by
  unfold consult
  refine .get ?_
  intro w
  split
  · exact .pure _
  · rename_i read _
    generalize inquiry.run w.checksOn w.thread read = answer
    refine Act.Retains.bind (.modify ?_) ?_
    · intro _
      exact .of_trees rfl
    · intro _
      split
      · exact .pure _
      · exact .throw _

theorem invalidate_retains (p : PeerId) : (Peer.invalidate p : Act μ Unit).Retains R t := by
  unfold Peer.invalidate
  refine .get ?_
  intro w
  split
  · exact .pure _
  · split
    · exact .pure _
    · refine Act.Retains.bind (.modify ?_) fun _ => .tell _
      intro _
      exact .of_trees rfl

theorem degrade_retains (question : String) (result : Except Unavailable α) :
    (a.degrade question result : Act μ _).Retains R t := by
  unfold Adapter.degrade
  split
  · exact .pure _
  · exact (Act.Retains.tell _).bind fun _ => .pure _

theorem hasTree_retains : (a.hasTree : Act μ Bool).Retains R t := .get fun _ => .pure _

variable (others : ∀ {w w' : World μ}, R w w' → World.Retains t w w')

include others

theorem handOff_retains {c : ContextId} {bound : Option Duration} {work : Act μ α}
    (h : work.Retains R t) : (handOff c bound work).Retains R t := by
  unfold handOff
  refine (Act.Retains.tell _).bind fun _ => .get fun w => ?_
  split
  · exact .pure _
  · split
    · unfold runInline
      apply h.attempt.bind
      intro result
      split
      · exact (Act.Retains.tell _).bind fun _ => .pure _
      · exact .pure _
    · refine (enqueue_retains c).bind ?_
      intro place
      split
      · exact .pure _
      · unfold runQueued
        refine .get fun w => ?_
        split
        · refine (Act.Retains.call others _ _ _).bind ?_
          intro result
          split
          · exact .pure _
          · unfold giveUp
            exact .get fun w => (Act.Retains.tell _).bind fun _ => .pure _
        · exact (Act.Retains.leave others _ _).bind fun _ => .throw _

theorem query_retains (p : PeerId) (read : Inquiry (Except Unavailable α)) :
    (Peer.query p read : Act μ _).Retains R t := by
  unfold Peer.query
  refine .get ?_
  intro w
  split
  · exact .pure _
  · split
    · exact .pure _
    · refine (handOff_retains others (consult_retains _ _)).bind ?_
      intro outcome
      split
      · exact (invalidate_retains p).bind fun _ => .pure _
      · exact .pure _

/-- Reading a table leaves a tree its nodes. -/
theorem read_retains (question : String) (reading : Inquiry (Except Unavailable α)) :
    (a.read question reading : Act μ _).Retains R t :=
  (query_retains others a.peer reading).bind fun result => degrade_retains question result

end Readings

/-! ### Nodes that are found or made -/

/-- A tree that is there is found. -/
theorem getTree_run {tree : Tree} (ht : w.trees[t]? = some tree) :
    getTree t w = .done (.ok tree) w := by
  unfold getTree
  simp only [Act.bind_apply, Act.get_apply, Progress.bind, ht]
  rfl

theorem Act.Ends.getTree {f : Tree → Act μ α} {r : Except Panic α}
    (run : (getTree t >>= f).Ends R w r w') :
    (∃ tree, w.trees[t]? = some tree ∧ (f tree).Ends R w r w') ∨ (∃ p, r = .error p) ∧ w' = w := by
  have looked : ∀ {r : Except Panic Tree} {w' : World μ}, (TableAccess.getTree t).Ends R w r w' →
      (∃ tree, w.trees[t]? = some tree ∧ r = .ok tree ∧ w' = w) ∨ (∃ p, r = .error p) ∧ w' = w := by
    intro r w' run
    have run := run.get
    split at run
    · rename_i tree ht
      exact .inl ⟨tree, ht, run.pure⟩
    · exact .inr ⟨⟨_, run.throw.1⟩, run.throw.2⟩
  rcases run.bind with ⟨tree, w₁, first, rest⟩ | ⟨e, rfl, first⟩
  · rcases looked first with ⟨tree', ht, e, rfl⟩ | ⟨⟨p, e⟩, -⟩
    · cases e
      exact .inl ⟨tree, ht, rest⟩
    · cases e
  · rcases looked first with ⟨tree', -, e, -⟩ | ⟨-, same⟩
    · cases e
    · exact .inr ⟨⟨e, rfl⟩, same⟩

/-- What stands for an identity is found or made, and the tree keeps its nodes. -/
theorem obtain_run {parent : NodeKey} {peer : PeerId} {r : Except Panic Adapter}
    (run : (obtain t i (some parent) peer).Ends R w r w')
    (isParent : ∀ tree, w.trees[t]? = some tree → tree.IsParent i parent) :
    World.Retains t w w' ∧ (w.Sound t → ∀ a, r = .ok a → w'.Holds t a ∧ a.identity = i) := by
  rcases run.getTree with ⟨tree, ht, run⟩ | ⟨⟨p, rfl⟩, rfl⟩
  · cases found : tree.find? i with
    | some b =>
      rw [found] at run
      obtain ⟨rfl, rfl⟩ := run.pure
      refine ⟨.refl _, ?_⟩
      rintro ⟨tree', ht', coherent⟩ a e
      cases e
      rw [ht] at ht'
      cases ht'
      obtain ⟨stored, identity⟩ := coherent.indexed.find?_eq_some_iff.1 found
      exact ⟨⟨tree, ht, coherent, coherent.indexed.key stored ▸ stored⟩, identity⟩
    | none =>
      rw [found] at run
      cases next : tree.nodes.nextKey? with
      | none =>
        simp only [next] at run
        obtain ⟨rfl, rfl⟩ := run.throw
        exact ⟨.refl _, fun _ a e => by cases e⟩
      | some k =>
        simp only [next] at run
        obtain ⟨rfl, rfl⟩ := run.modify.tell.pure
        have added := World.Retains.add (a := ⟨k, i, some parent, peer, t⟩) ht next found rfl
          (isParent tree ht) rfl
        refine ⟨added.trans (.of_trees rfl), ?_⟩
        rintro ⟨tree', ht', coherent⟩ a e
        cases e
        rw [ht] at ht'
        cases ht'
        refine ⟨⟨tree.add ⟨k, i, some parent, peer, t⟩, ?_, ?_, ?_⟩, rfl⟩
        · simp [World.modifyTree, World.tell, ht]
        · exact coherent.add next found rfl (.inr ⟨parent, rfl, isParent tree ht⟩)
        · rw [coherent.indexed.get?_add next, if_pos rfl]
  · exact ⟨.refl _, fun _ a e => by cases e⟩

/-- An act finds or makes a node that stands for an identity. -/
structure Act.Finds (R : World μ → World μ → Prop) (t : TreeId) (i : Identity)
    (act : Act μ Adapter) : Prop where
  /-- The tree keeps its nodes. -/
  retains : act.Retains R t
  /-- The node is in the tree. -/
  found : ∀ {w w' : World μ} {a : Adapter}, act.Ends R w (.ok a) w' → w.Sound t →
    w'.Holds t a ∧ a.identity = i

theorem rowNode_finds (table : NodeKey) (peer : PeerId) (row : Nat) :
    (rowNode t table peer row).Finds R t (.row table row) where
  retains := ⟨fun run => (obtain_run run fun _ _ => .row table row).1⟩
  found run sound := (obtain_run run fun _ _ => .row table row).2 sound _ rfl

theorem columnNode_finds (table : NodeKey) (peer : PeerId) (column : Nat) :
    (columnNode t table peer column).Finds R t (.column table column) where
  retains := ⟨fun run => (obtain_run run fun _ _ => .column table column).1⟩
  found run sound := (obtain_run run fun _ _ => .column table column).2 sound _ rfl

theorem cellNode_run {table : NodeKey} {peer : PeerId} {row column : Nat} {r : Except Panic Adapter}
    (run : (cellNode t table peer row column).Ends R w r w') (sound : w.Sound t) :
    World.Retains t w w' ∧ ∀ a, r = .ok a → w'.Holds t a ∧ a.identity = .cell table row column := by
  rcases run.bind with ⟨parent, w₁, first, rest⟩ | ⟨e, rfl, first⟩
  · have before := (rowNode_finds table peer row).retains.run first
    obtain ⟨⟨tree, ht, coherent, stored⟩, identity⟩ := (rowNode_finds table peer row).found first sound
    have isParent : ∀ tree', w₁.trees[t]? = some tree' →
        tree'.IsParent (.cell table row column) parent.key := by
      intro tree' ht'
      rw [ht] at ht'
      cases ht'
      exact .cell (coherent.indexed.find?_eq_some_iff.2 ⟨stored, identity⟩) column
    obtain ⟨after, found⟩ := obtain_run rest isParent
    exact ⟨before.trans after, found (before.sound sound)⟩
  · exact ⟨(rowNode_finds table peer row).retains.run first, fun a e => by cases e⟩

theorem cellNode_finds (table : NodeKey) (peer : PeerId) (row column : Nat) :
    (cellNode t table peer row column).Finds R t (.cell table row column) where
  retains := ⟨fun run => ⟨fun ht coherent =>
    (cellNode_run run ⟨_, ht, coherent⟩).1.stays ht coherent⟩⟩
  found run sound := (cellNode_run run sound).2 _ rfl

/-- Acts that find one node each find all of them, in order. -/
theorem each_finds {make : Nat → Act μ Adapter} {identity : Nat → Identity} {items : List Nat}
    {nodes : List Adapter} (finds : ∀ n, (make n).Finds R t (identity n))
    (run : (Act.each items make).Ends R w (.ok nodes) w') (sound : w.Sound t) :
    nodes.map Adapter.identity = items.map identity ∧ ∀ b ∈ nodes, w'.Holds t b := by
  induction items generalizing w nodes with
  | nil =>
    obtain ⟨rfl, -⟩ := run.each_nil
    exact ⟨rfl, fun b hb => by cases hb⟩
  | cons n rest ih =>
    obtain ⟨a, w₁, nodes', first, others, rfl⟩ := run.each_cons
    have sound₁ := ((finds n).retains.run first).sound sound
    obtain ⟨holds, stands⟩ := (finds n).found first sound
    obtain ⟨same, all⟩ := ih others sound₁
    have after := (Act.Retains.each fun n => (finds n).retains).run others
    refine ⟨by rw [List.map_cons, List.map_cons, stands, same], ?_⟩
    intro b hb
    rcases List.mem_cons.1 hb with rfl | hb
    · exact after.holds holds
    · exact all b hb

end TableAccess
