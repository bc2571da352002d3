import TableAccess.Proofs.Keeping

/-!
# What is left when tables are looked at

Almost every question makes nodes, and some latch a peer, but that is all that looking at tables does:
no node ever leaves its place, whatever becomes of the tables meanwhile.

## The model

* `Mutations` — what is done to tables besides asking them; `Table.Becomes` — what becomes of a table.
* `Tree.Extends`, `World.Extends` — what becomes of a tree, and of the world, that is only looked at.
* `Conduct.looking` — that is left; `Conduct.looking_lasting` — by all threads together, too.
* `Act.Looking` — an act that looks at tables and mutates them; `Looking.keeps` — that it does no more.
* `Agenda.Looking` — all threads do so.
-/

namespace TableAccess

variable {μ α : Type} {M : Mutations} {w w' w'' : World μ} {t : TreeId} {a : Adapter}

/-! ### What may become of tables -/

/-- What is done to tables besides asking them: a table may become another one, or be dropped, and a
new one may come in its place. -/
abbrev Mutations := TableId → Option Table → Option Table → Prop

namespace Table

/-- A table is mutated or asked. -/
inductive Shifts (M : Mutations) (t : TableId) : Option Table → Option Table → Prop where
  | mutated {table later : Option Table} (h : M t table later) : Shifts M t table later
  | asked (table : Table) (checksOn : Bool) (now : Thread) (q : Question) :
    Shifts M t (some table) (some (table.ask checksOn now q).2)

/-- A table is mutated and asked again and again. -/
def Becomes (M : Mutations) (t : TableId) : Option Table → Option Table → Prop :=
  Relation.ReflTransGen (Shifts M t)

/-- The contents of an editable table are changed by mutations only. -/
theorem Becomes.eq_of_unmutated {g : GridTable} {later : Option Table}
    (h : Becomes M t (some (.grid g)) later) (unmutated : ∀ table later, ¬M t table later) :
    later = some (.grid g) := by
  induction h with
  | refl => rfl
  | tail _ shifts ih =>
    cases shifts with
    | mutated h => exact absurd h (unmutated _ _)
    | asked table checksOn now q =>
      cases ih
      rfl

end Table

/-! ### What may become of trees -/

namespace Tree

variable {tree tree' tree'' : Tree} {k : NodeKey}

/-- A tree that nodes of rows, columns and cells were added to. -/
structure Extends (tree tree' : Tree) : Prop where
  context : tree'.context = tree.context
  alive : tree'.alive = tree.alive
  /-- Every node is under its key, and is the same. -/
  stays : ∀ {k a}, tree.get? k = some a → tree'.get? k = some a
  /-- One that was not there is the node of a row, column or cell. -/
  new : ∀ {k a}, tree'.get? k = some a → tree.get? k = some a ∨ tree.get? k = none ∧ a.role ≠ .table

namespace Extends

theorem refl (tree : Tree) : tree.Extends tree := ⟨rfl, rfl, id, .inl⟩

theorem trans (h : tree.Extends tree') (h' : tree'.Extends tree'') : tree.Extends tree'' where
  context := h'.context.trans h.context
  alive := h'.alive.trans h.alive
  stays ha := h'.stays (h.stays ha)
  new {k a} ha := by
    rcases h'.new ha with old | ⟨absent, notTable⟩
    · exact h.new old
    · refine .inr ⟨?_, notTable⟩
      rw [Option.eq_none_iff_forall_ne_some] at absent ⊢
      exact fun b hb => absent b (h.stays hb)

/-- A node is added for a row, column or cell. -/
theorem add (indexed : tree.Indexed) (next : tree.nodes.nextKey? = some a.key)
    (notTable : a.role ≠ .table) : tree.Extends (tree.add a) where
  context := rfl
  alive := rfl
  stays ha := indexed.get?_add_of_some next ha
  new {k b} hb := by
    rw [indexed.get?_add next] at hb
    split at hb
    · subst k
      cases hb
      exact .inr ⟨indexed.arena.get?_nextKey next, notTable⟩
    · exact .inl hb

end Extends

end Tree

/-! ### What may become of the world -/

/-- A peer that may have been latched. -/
structure Peer.Latches (peer peer' : Peer) : Prop where
  table : peer'.table = peer.table
  context : peer'.context = peer.context
  /-- A latch stays. -/
  latched : peer.invalidated = true → peer'.invalidated = true

namespace World

/-- All trees are coherent. -/
def Coherent (w : World μ) : Prop :=
  ∀ {t : TreeId} {tree : Tree}, w.trees[t]? = some tree → tree.Coherent t

/-- Nothing was done but that nodes of rows, columns and cells were added and peers were latched, and
that tables were asked or mutated. -/
structure Extends (M : Mutations) (w w' : World μ) : Prop where
  /-- Nodes were added to trees. -/
  trees : ∀ t : TreeId, Option.Rel Tree.Extends w.trees[t]? w'.trees[t]?
  /-- Peers were latched. -/
  peers : ∀ p : PeerId, Option.Rel Peer.Latches w.peers[p]? w'.peers[p]?
  /-- Nothing was done to bridges. -/
  bridges : w'.bridges = w.bridges
  /-- Tables were mutated and asked. -/
  tables : ∀ t, Table.Becomes M t (w.table? t) (w'.table? t)

namespace Extends

/-- The same trees, peers, bridges and tables. -/
theorem of_same (trees : w'.trees = w.trees) (peers : w'.peers = w.peers)
    (bridges : w'.bridges = w.bridges) (tables : w'.tables = w.tables) : w.Extends M w' where
  trees t := by
    rw [trees]
    cases w.trees[t]? with
    | none => exact .none
    | some tree => exact .some (.refl tree)
  peers p := by
    rw [peers]
    cases w.peers[p]? with
    | none => exact .none
    | some peer => exact .some ⟨rfl, rfl, id⟩
  bridges := bridges
  tables t := by
    unfold table?
    rw [tables]
    exact .refl

theorem trans (h : w.Extends M w') (h' : w'.Extends M w'') : w.Extends M w'' where
  trees t := by
    have first := h.trees t
    have second := h'.trees t
    generalize w.trees[t]? = before at first
    generalize w'.trees[t]? = between at first second
    cases first with
    | none => exact second
    | some grows =>
      generalize w''.trees[t]? = after at second ⊢
      cases second with
      | some grows' => exact .some (grows.trans grows')
  peers p := by
    have first := h.peers p
    have second := h'.peers p
    generalize w.peers[p]? = before at first
    generalize w'.peers[p]? = between at first second
    cases first with
    | none => exact second
    | some latches =>
      generalize w''.peers[p]? = after at second ⊢
      cases second with
      | some latches' =>
        exact .some ⟨latches'.table.trans latches.table, latches'.context.trans latches.context,
          fun latched => latches'.latched (latches.latched latched)⟩
  bridges := h'.bridges.trans h.bridges
  tables t := (h.tables t).trans (h'.tables t)

/-- Nothing was done at all. -/
theorem refl (w : World μ) : w.Extends M w := of_same rfl rfl rfl rfl

/-- Something is done to tables. -/
theorem mutate (tables : List (Option Table))
    (becomes : ∀ t, Table.Becomes M t (w.table? t) tables[t]?.join) :
    w.Extends M { w with tables } :=
  { refl (M := M) w with tables := becomes }

/-- A table is asked. -/
theorem ask {t : TableId} {table : Table} (ht : w.table? t = some table) (checksOn : Bool)
    (thread : Thread) (q : Question) :
    w.Extends M (w.setTable t (some (table.ask checksOn thread q).2)) := by
  refine mutate _ fun t' => ?_
  show Table.Becomes M t' _ ((w.setTable t _).table? t')
  rw [table?_setTable ht]
  split
  · subst t'
    rw [ht]
    exact .single (.asked table checksOn thread q)
  · exact .refl

/-- A peer is latched. -/
theorem latch (p : PeerId) :
    w.Extends M { w with peers := w.peers.modify p ({ · with invalidated := true }) } where
  trees := (refl (M := M) w).trees
  peers p' := by
    rw [List.getElem?_modify]
    cases w.peers[p']? with
    | none => exact .none
    | some peer =>
      refine .some ?_
      split
      · exact ⟨rfl, rfl, fun _ => rfl⟩
      · exact ⟨rfl, rfl, id⟩
  bridges := rfl
  tables _ := .refl

/-- A node is added for a row, column or cell. -/
theorem add {tree : Tree} (ht : w.trees[t]? = some tree) (indexed : tree.Indexed)
    (next : tree.nodes.nextKey? = some a.key) (notTable : a.role ≠ .table) :
    w.Extends M (w.modifyTree t (·.add a)) where
  trees t' := by
    rw [getElem?_modifyTree ht]
    split
    · subst t'
      rw [ht]
      exact .some (.add indexed next notTable)
    · exact (refl (M := M) w).trees t'
  peers := (refl (M := M) w).peers
  bridges := rfl
  tables _ := .refl

/-- A tree is there still, and has its nodes. -/
theorem tree {tree : Tree} (h : w.Extends M w') (ht : w.trees[t]? = some tree) :
    ∃ tree', w'.trees[t]? = some tree' ∧ tree.Extends tree' := by
  have grows := h.trees t
  rw [ht] at grows
  generalize w'.trees[t]? = after at grows
  cases grows with
  | some grows => exact ⟨_, rfl, grows⟩

end Extends

end World

/-! ### Requests that only look -/

/-- Nothing is disturbed. -/
def Conduct.looking (M : Mutations) : Conduct μ := 
  ⟨World.Coherent, fun w₀ w => w₀.Extends M w ∧ w.Coherent⟩

theorem Conduct.looking_lasting : (looking M : Conduct μ).Lasting where
  aside {w w'} aside coherent := by
    rw [World.Aside] at aside
    refine ⟨.of_same ?_ ?_ ?_ ?_, ?_⟩
    all_goals rw [aside]
    exact coherent
  finds _ leaves := leaves.2
  trans h h' := ⟨h.1.trans h'.1, h'.2⟩

/-- Whatever comes up while tables are looked at disturbs nothing. -/
theorem Scope.looking_visits : any.Visits (Conduct.looking M : Conduct μ) fun _ => True := by
  refine any_visits ⟨fun coherent => ⟨.refl _, coherent⟩, fun _ _ along => ?_⟩
    (fun along ht q => ⟨along.leaves.1.trans (.ask ht _ _ q), along.leaves.2⟩)
    (fun along p => ⟨(along.leaves.1.trans (.latch p)).trans (.of_same rfl rfl rfl rfl),
      along.leaves.2⟩) ?_
  · exact ⟨along.leaves.1.trans (.of_same rfl rfl rfl rfl), along.leaves.2⟩
  · intro w₀ w t tree p i k parent along notTable ht new next isParent
    have coherent := along.leaves.2 ht
    refine ⟨along.leaves.1.trans (.add ht coherent.indexed next notTable), ?_⟩
    intro t' tree' ht'
    rw [World.getElem?_modifyTree ht] at ht'
    split at ht'
    · subst t'
      cases ht'
      exact coherent.add next new rfl (.inr ⟨parent, rfl, isParent coherent.indexed⟩)
    · exact along.leaves.2 ht'

/-- A request with which no table is attached and none is taken out disturbs nothing. -/
theorem Request.looking {request : Request} (looks : request.Looks) (kind : request.OfTable) :
    request.act.Keeps (Conduct.looking M : Conduct μ) (fun _ => True) fun _ => True :=
  Scope.looking_visits.request looks (Scope.open_any.admits kind fun _ _ _ => trivial)

/-! ### Acts that look -/

/-- An act of someone who asks for things and mutates tables, one after another; what comes next may
depend on all that there is. -/
inductive Act.Looking (M : Mutations) : {α : Type} → Act μ α → Prop where
  /-- Nothing is left to do. -/
  | pure {α : Type} (a : α) : Looking M (Pure.pure a : Act μ α)
  /-- One thing after another. -/
  | bind {α β : Type} {act : Act μ α} {f : α → Act μ β} (first : Looking M act)
      (rest : ∀ a, Looking M (f a)) : Looking M (act >>= f)
  /-- A look at the world. -/
  | get {α : Type} {f : World μ → Act μ α} (rest : ∀ w, Looking M (f w)) :
    Looking M (MonadState.get >>= f)
  /-- A panic ends with the act. -/
  | attempt {α : Type} {act : Act μ α} (h : Looking M act) : Looking M act.attempt
  /-- All this is handed over to a context. -/
  | handOff {α : Type} {act : Act μ α} (c : ContextId) (bound : Option Duration) (h : Looking M act) :
    Looking M (handOff c bound act)
  /-- A request with which no table is attached and none is taken out. -/
  | request {request : Request} (looks : request.Looks) (kind : request.OfTable) :
    Looking M request.act
  /-- A reading of a table. -/
  | read {α : Type} {read : Inquiry (Except Unavailable α)} (a : Adapter)
      (honest : Reading.Honest read) : Looking M (a.tryRead read)
  /-- Tables are mutated, and nothing else is done. -/
  | mutate {f : List (Option Table) → List (Option Table)}
      (becomes : ∀ (tables : List (Option Table)) (t : TableId),
        Table.Becomes M t tables[t]?.join (f tables)[t]?.join) :
    Looking M (modify fun w : World μ => { w with tables := f w.tables })

/-- Nothing is disturbed by it. -/
theorem Act.Looking.keeps {act : Act μ α} (h : act.Looking M) :
    act.Keeps (.looking M) (fun _ => True) fun _ => True := by
  induction h with
  | pure a => exact .pure trivial
  | bind _ _ first rest => exact first.bind fun a _ => rest a
  | get _ rest => exact .get fun along => (rest _).keeps along
  | attempt _ ih => exact ⟨fun along => .attempt (ih.keeps along) fun _ _ => trivial⟩
  | handOff c bound _ ih =>
    have plain : (Conduct.looking M : Conduct μ).Plain := Scope.looking_visits.plain
    exact (Act.Keeps.handOff plain ih trivial).forget
  | request looks kind => exact Request.looking looks kind
  | read a honest =>
    exact (Scope.looking_visits.query (p := a.peer) trivial (Reading.reports_of_honest honest)).forget
  | @mutate f becomes =>
    exact ⟨fun {w₀ w} along => ⟨⟨along.thread,
      along.leaves.1.trans (.mutate (f w.tables) (becomes w.tables)), along.leaves.2⟩, trivial⟩⟩

/-- All threads look at tables and mutate them, of their own accord, and nobody waits. -/
structure Agenda.Looking (M : Mutations) (a : Agenda μ) : Prop where
  /-- Whoever goes on, or can go on later, does so. -/
  strands : ∀ strand, a.running = some strand ∨ strand ∈ a.ready →
    ∃ (α : Type) (thread : Thread) (act : Act μ α),
      strand = .mk thread act (fun _ => none) ∧ act.Looking M
  asleep : a.asleep = []
  left : a.left = []

theorem Agenda.Looking.keeps {a : Agenda μ} (h : a.Looking M) : a.Keeps (.looking M) := by
  have strands : ∀ strand, a.running = some strand ∨ strand ∈ a.ready →
      strand.Keeps (.looking M) := fun strand mem => by
    obtain ⟨α, thread, act, rfl, looking⟩ := h.strands strand mem
    refine Strand.keeps_of_nobody fun w _ coherent => ?_
    have along : (Conduct.looking M : Conduct μ).Along w w :=
      Scope.looking_visits.plain.along coherent
    exact (looking.keeps.keeps along).progress.mono fun _ _ _ => trivial
  refine ⟨fun running => strands _ (.inl running), fun strand mem => strands strand (.inr mem),
    fun z mem => ?_, fun entry mem => ?_⟩
  · rw [h.asleep] at mem
    cases mem
  · rw [h.left] at mem
    cases mem

end TableAccess
