import TableAccess.Proofs.Bystanders
import TableAccess.Proofs.Degrading
import TableAccess.Proofs.Likeness
import TableAccess.Proofs.Serving

/-!
# Tables that fail

A table may panic whenever it is asked, or answer differently from one time to the next. That stays its
own affair: whoever asks for something is not made to panic but has nothing for an answer, the contexts
go on serving, and the other tables are as they were, with the same nodes under the same keys, and
answer as before.

## The model

* `Census.Allows` — a request that a census has room for.
* `Moment.bystander` — a table as those find it who have to do with other tables only.
* `Moment.viewpoint` — a table in a tree, as its nodes see it; `World.Spares.twins` — a table that was
  spared looks as before.
* `Containment` — all that it means to be contained; `faulty_tables_are_contained` — the main statement.
-/

namespace TableAccess

variable {μ α : Type} {m m' : Moment μ} {t : TreeId} {k : NodeKey} {a b root : Adapter}
  {table other : TableId}

/-! ### No panics -/

namespace Census

variable {s : Census}

/-- A census has room for what a request may come to. To attach one more table takes one more slot. -/
def Allows (s : Census) : Request → Prop
  | .attachTo t _ => t < s.trees ∧ (s.nodes t).card < Arena.maxSlots
  | .attach b _ => b < s.bridges ∧ ∀ t < s.trees, (s.nodes t).card < Arena.maxSlots
  | request => s.scope.Admits request

/-- No request panics on its caller, whatever the tables do. -/
theorem Allows.calm {request : Request} (h : s.Allows request) {w : World μ} (holds : s.Holds w) :
    (request.act w).Keeps (.finding s.Holds : Conduct μ) (fun _ result => ∃ v, result = .ok v) w := by
  have admitted : s.scope.Admits request → (request.act w).Keeps (.finding s.Holds : Conduct μ)
      (fun _ result => ∃ v, result = .ok v) w := by
    intro admitted
    have keeps := ((request_does_not_panic admitted).keeps ⟨rfl, holds⟩).progress
    have found : (request.act w).Keeps (.finding s.Holds : Conduct μ) _ w :=
      keeps.weaken id fun _ => trivial
    refine found.mono fun _ result ⟨_, allowed⟩ => ?_
    cases result with
    | ok v => exact ⟨v, rfl⟩
    | error p => exact allowed.elim
  cases request with
  -- attaching asks no table anything, so it is over at once
  | attachTo t table =>
    obtain ⟨result, w', run, attached⟩ := attachTable_run t table w
    obtain ⟨a, rfl⟩ := holds.attached h.1 h.2 attached
    show ((attachTable t table w).bind _).Keeps _ _ w
    rw [run]
    exact ⟨⟨attached.thread, trivial⟩, (), rfl⟩
  | attach b table =>
    obtain ⟨result, w', run, attached⟩ := Bridge.attach_run b table w
    obtain ⟨a, rfl⟩ := holds.attached_bridge h.1 h.2 attached
    show ((Bridge.attach b table w).bind _).Keeps _ _ w
    rw [run]
    exact ⟨⟨attached.thread, trivial⟩, (), rfl⟩
  | _ => exact admitted h

end Census

/-! ### Other tables -/

/-- A table as those find it who have to do with other tables only, and look up nodes by their keys in
some trees. -/
def Moment.bystander (m : Moment μ) (table : TableId) (walked : TreeId → Prop) : Bystander where
  table := table
  Others p := ∀ peer, m.world.peers[p]? = some peer → peer.table ≠ table
  Keys t k := ∃ a, m.world.Stores t a.key a ∧ a.tableKey = k ∧ m.world.Reads a table
  Walked := walked
  Nodes t k := ∃ a, m.world.Stores t k a ∧
    ∃ b, m.world.Stores t b.key b ∧ b.tableKey = a.tableKey ∧ m.world.Reads b table
  tree b := ((m.world.bridges[b]?).map Bridge.tree).getD 0
  Roots b k := (m.world.bridges[b]?).bind Bridge.root = some k

theorem Moment.Lived.bystands (h : m.Lived) (table : TableId) (walked : TreeId → Prop) :
    (m.bystander table walked).Stands m.world where
  others other hp := other _ hp
  indexed ht := (h.coherent ht).indexed
  nodes {t tree k a} ht ha other := by
    have coherent := h.coherent ht
    have key := coherent.indexed.key ha
    refine ⟨fun peer hp same => other ⟨a, ⟨tree, ht, key.symm ▸ ha⟩, rfl, peer, hp, same⟩,
      coherent.here ha, fun isTable => ?_⟩
    have holds : m.world.Holds t a := ⟨tree, ht, coherent, key.symm ▸ ha⟩
    exact (holds.own (Identity.eq_of_role_table isTable)).symm
  own {t tree} _ ht k := by
    refine exists_congr fun a => and_congr_left fun _ => ?_
    unfold World.Stores
    rw [ht]
    simp
  bridges {b bridge} hb := by
    refine ⟨?_, fun k e => ?_⟩
    · show bridge.tree = ((m.world.bridges[b]?).map Bridge.tree).getD 0
      rw [hb]
      rfl
    · show (m.world.bridges[b]?).bind Bridge.root = some k
      rw [hb]
      exact e

/-- A node of another table may be asked. -/
theorem Moment.Lived.bystander_node (h : m.Lived) (once : m.GivenOnce t)
    (stored : m.world.Stores t k a) (apart : ¬m.world.Reads a table) (walked : TreeId → Prop) :
    (m.bystander table walked).scope.Node t a := by
  obtain ⟨tree, ht, ha⟩ := stored
  refine (h.bystands table walked).node ht ha ?_
  rintro ⟨b, ⟨tree', ht', hb⟩, same, reads⟩
  rw [ht] at ht'
  cases ht'
  have coherent := h.coherent ht
  refine apart ?_
  have peers := h.keyed.same_peer once (h.keyed.stored ht ha) (h.keyed.stored ht hb) (coherent.here ha)
    (coherent.here hb) same.symm
  unfold World.Reads
  rw [peers]
  exact reads

/-! ### The answers of other tables -/

/-- A table in a tree, as its nodes see it. -/
def Moment.viewpoint (m : Moment μ) (t : TreeId) (root : Adapter) (table : TableId) : Viewpoint :=
  ⟨t, root.key, root.peer, table, fun a => m.world.Stores t a.key a ∧ a.tableKey = root.key⟩

section Twins

variable (h : m.Lived) (once : m.GivenOnce t) (isRoot : m.world.Stores t root.key root)
  (isTable : root.role = .table)

include h isRoot isTable

theorem Moment.Lived.identity_root : root.identity = .table root.key := by
  obtain ⟨tree, ht, hr⟩ := isRoot
  have holds : m.world.Holds t root := ⟨tree, ht, h.coherent ht, hr⟩
  have own := Identity.eq_of_role_table isTable
  rw [own, holds.own own]

include once

/-- The nodes of the table have its peer. -/
theorem Moment.Lived.peer_of_family (stored : m.world.Stores t k a) (own : a.tableKey = root.key) :
    a.peer = root.peer := by
  have identity := h.identity_root isRoot isTable
  obtain ⟨tree, ht, ha⟩ := stored
  obtain ⟨tree', ht', hr⟩ := isRoot
  rw [ht] at ht'
  cases ht'
  have coherent := h.coherent ht
  refine h.keyed.same_peer once (h.keyed.stored ht ha) (h.keyed.stored ht hr) (coherent.here ha)
    (coherent.here hr) ?_
  rw [own, Adapter.tableKey, identity]
  rfl

/-- A node of the table belongs to what is looked at. -/
theorem Moment.Lived.has (table : TableId) (stored : m.world.Stores t a.key a)
    (own : a.tableKey = root.key) : (m.viewpoint t root table).Has a := by
  have identity := h.identity_root isRoot isTable
  have peer := h.peer_of_family once isRoot isTable stored own
  obtain ⟨tree, ht, ha⟩ := stored
  have coherent := h.coherent ht
  have holds : m.world.Holds t a := ⟨tree, ht, coherent, ha⟩
  have rootKnown : (m.viewpoint t root table).Known root :=
    ⟨isRoot, by rw [Adapter.tableKey, identity]; rfl⟩
  refine ⟨coherent.here ha, peer, own, fun k e => ?_, fun k e => ?_⟩
  · rw [Adapter.tableKey, e] at own
    rw [holds.own e]
    exact own
  · rcases coherent.parent ha with ⟨none, -⟩ | ⟨p, e', isParent⟩
    · cases none.symm.trans e
    · cases e'.symm.trans e
      rw [Adapter.tableKey] at own
      generalize a.identity = i at own isParent
      cases isParent with
      | row => exact ⟨root, rootKnown, own.symm⟩
      | column => exact ⟨root, rootKnown, own.symm⟩
      | @cell k' r b found =>
        obtain ⟨stored', isRow⟩ := coherent.indexed.find?_eq_some_iff.1 found
        exact ⟨b, ⟨⟨tree, ht, stored'⟩, by rw [Adapter.tableKey, isRow]; exact own⟩, rfl⟩

/-- A table that was spared looks as before, if its context takes tasks as before. -/
theorem World.Spares.twins (h' : m'.Lived) (once' : m'.GivenOnce t) (reads : m.world.Reads root table)
    (spared : m.world.Spares table m'.world) (thread : m.world.thread = m'.world.thread)
    (contexts : ∀ c : ContextId, Option.Rel (Context.Like m.world.clock m'.world.clock)
      m.world.contexts[c]? m'.world.contexts[c]?) :
    (m.viewpoint t root table).Twins m.world m'.world := by
  have isRoot' : m'.world.Stores t root.key root := (spared.nodes reads).2 isRoot
  -- a node of the table reads it, in both worlds, since it has the peer of the table's node
  have readsIt : ∀ {b : Adapter}, b.peer = root.peer → m.world.Reads b table := by
    intro b same
    unfold Reads
    rw [same]
    exact reads
  obtain ⟨peer, hp, refers⟩ := reads
  obtain ⟨tree, ht, hr⟩ := id isRoot
  obtain ⟨tree', ht', hr'⟩ := id isRoot'
  have coherent := h.coherent ht
  have coherent' := h'.coherent ht'
  refine ⟨thread, spared.checks.symm, spared.content.symm, ?_, fun {peer'} hp' => ?_, contexts, ?_⟩
  · show m.world.peers[root.peer]? = m'.world.peers[root.peer]?
    rw [hp, (spared.peers refers).2 hp]
  · cases hp.symm.trans hp'
    exact refers
  · show Option.Rel _ m.world.trees[t]? m'.world.trees[t]?
    rw [ht, ht']
    have held := spared.held t
    rw [ht, ht'] at held
    refine .some ⟨(Option.some.inj held).symm, coherent.indexed, coherent'.indexed, fun {i} own => ?_,
      fun {b} known => ?_⟩
    · have same : tree.find? i = tree'.find? i := by
        refine Option.ext fun b => ?_
        show tree.find? i = some b ↔ tree'.find? i = some b
        rw [coherent.indexed.find?_eq_some_iff, coherent'.indexed.find?_eq_some_iff]
        refine and_congr_left fun e => ?_
        have family : b.tableKey = root.key := by rw [Adapter.tableKey, e]; exact own
        have stores : m.world.Stores t b.key b ↔ tree.get? b.key = some b := by simp [Stores, ht]
        have stores' : m'.world.Stores t b.key b ↔ tree'.get? b.key = some b := by simp [Stores, ht']
        rw [← stores, ← stores']
        constructor
        · intro there
          exact (spared.nodes (readsIt (h.peer_of_family once isRoot isTable there family))).2 there
        · intro there
          exact (spared.nodes (readsIt (h'.peer_of_family once' isRoot' isTable there family))).1 there
      rw [same]
      cases tree'.find? i with
      | none => exact .none
      | some b => exact .some (.refl b)
    · obtain ⟨stored, own⟩ := known
      have reads := readsIt (h.peer_of_family once isRoot isTable stored own)
      obtain ⟨tree₁, ht₁, hb⟩ := stored
      obtain ⟨tree₂, ht₂, hb'⟩ := (spared.nodes reads).2 ⟨tree₁, ht₁, hb⟩
      cases ht.symm.trans ht₁
      cases ht'.symm.trans ht₂
      exact ⟨hb, hb'⟩

end Twins

/-! ### Containment -/

/-- What it means that tables that fail are contained. Nothing is assumed of what a table answers, or
of when it panics. -/
structure Containment (μ : Type) : Prop where
  /-- No request panics on its caller, whatever thread it is made on and whatever its context is at,
  if a census has room for all the nodes that may come of what the tables answer. -/
  requests : ∀ {s : Census} {request : Request} {w : World μ}, s.Allows request → s.Holds w →
    (request.act w).Keeps (.finding s.Holds) (fun _ result => ∃ v, result = .ok v) w
  /-- Nor does a single reading, whether its caller wants the cause or just the value. -/
  readings : ∀ {α : Type} {s : Census} {a : Adapter} {read : Inquiry (Except Unavailable α)},
    read.AllOf (s.answers (s.table a.peer)) (Reading.Reports fun _ => True) →
    (a.tryRead read : Act μ _).Keeps (.keeping s.Holds) (fun _ => False) (fun _ => True) ∧
      ∀ question, (a.read question read : Act μ _).Keeps (.keeping s.Holds) (fun _ => False)
        fun _ => True
  /-- Who asks for something that cannot be read has no value, an empty list, or the cause. -/
  degrades : ∀ a : Adapter, a.DegradesThroughout μ
  /-- A request does nothing to contexts but hand tasks over. -/
  quiet : ∀ {request : Request}, request.OfTable →
    request.act.Keeps (.quiet : Conduct μ) (fun _ => True) fun _ => True
  /-- However a task has ended, with a value or with a panic, its context goes on serving. -/
  serves : ∀ {α : Type} {s : Timeline μ} {c : ContextId} {work : Act μ α} {result : Except Panic α}
    {w : World μ} {caller : Except Panic α → Option (Strand μ)}, s.Lived →
    s.running = some (.mk (.toolkit c) work caller) →
    work { s.world with thread := .toolkit c } = .done result w →
    ∃ context, w.contexts[c]? = some context ∧
      (s.works (.mk (.toolkit c) work caller)).Freed c context context.finish
  /-- A request that is about other tables spares a table: its content, its peers and their latches,
  its nodes and their keys. -/
  spares : ∀ {o : Bystander} {request : Request}, o.scope.Admits request →
    request.act.Keeps (o.conduct : Conduct μ) (fun _ => True) fun _ => True
  /-- Any table is a bystander to those who ask the nodes of others. -/
  bystands : ∀ {m : Moment μ} {table : TableId} {walked : TreeId → Prop}, m.Lived →
    (m.bystander table walked).Stands m.world ∧
      ∀ {t : TreeId} {k : NodeKey} {a : Adapter}, m.GivenOnce t → m.world.Stores t k a →
        ¬m.world.Reads a table → (m.bystander table walked).scope.Node t a
  /-- To attach another table spares a table. -/
  attaching : ∀ {b : BridgeId} {t : TreeId} {other table : TableId} {w : World μ}, other ≠ table →
    (∀ {t : TreeId} {tree : Tree}, w.trees[t]? = some tree → tree.Indexed) →
    (∃ result w', attachTable t other w = .done result w' ∧ w.Spares table w') ∧
      ∃ result w', Bridge.attach b other w = .done result w' ∧ w.Spares table w'
  /-- Whatever is requested, also of the whole tree, a table that stays keeps its nodes. -/
  hosts : ∀ {p : PeerId} {table : TableId} {c : ContextId} {t : TreeId} {k : NodeKey}
    {request : Request}, request.OfTable → request ≠ .detach t k →
    request.act.Keeps (.hosting p table c t k : Conduct μ) (fun _ => True) fun _ => True
  /-- The nodes of a table that was spared answer as before, but for the keys of new nodes, and whatever
  else is read of it is as before. -/
  answers : ∀ {m m' : Moment μ} {t : TreeId} {root a : Adapter} {table : TableId}, m.Lived → m'.Lived →
    m.GivenOnce t → m'.GivenOnce t → m.world.Stores t root.key root → root.role = .table →
    m.world.Reads root table → m.world.Spares table m'.world → m.world.thread = m'.world.thread →
    (∀ c : ContextId, Option.Rel (Context.Like m.world.clock m'.world.clock)
      m.world.contexts[c]? m'.world.contexts[c]?) →
    m.world.Stores t a.key a → a.tableKey = root.key →
    (∀ attr, (a.answer attr m.world).Alike (m.viewpoint t root table).Twins
      (m.viewpoint t root table).Answers (a.answer attr m'.world)) ∧
    ∀ {α : Type} (read : Inquiry (Except Unavailable α)),
      (a.tryRead read m.world).Alike (m.viewpoint t root table).Twins Eq (a.tryRead read m'.world)

/-- **A faulty table is contained.** Whatever a table answers, and whenever it panics, nobody who asks
for something panics for it, the contexts go on serving, and the other tables are as they were and
answer as before. -/
theorem faulty_tables_are_contained : Containment μ where
  requests allows holds := allows.calm holds
  readings {α s a read} reports :=
    ⟨(s.deeds.query trivial reports).mono fun _ _ => trivial,
      fun question => (s.deeds.read trivial question reports).mono fun _ _ => trivial⟩
  degrades a := a.degradesThroughout
  quiet kind := Request.quiet kind
  serves lived running done := lived.freed running done
  spares admitted := Bystander.request admitted
  bystands {m table walked} lived :=
    ⟨lived.bystands table walked, fun once stored apart => lived.bystander_node once stored apart walked⟩
  attaching {b t other table w} apart indexed := by
    obtain ⟨result, w', run, attached⟩ := attachTable_run t other w
    obtain ⟨result', w'', run', attached'⟩ := Bridge.attach_run b other w
    exact ⟨⟨result, w', run, attached.spares apart indexed⟩, result', w'', run',
      attached'.spares apart indexed⟩
  hosts kind apart := hosting_request kind apart
  answers {m m' t root a table} h h' once once' isRoot isTable reads spared thread contexts stored
      own := by
    have has := h.has once isRoot isTable table stored own
    have twins := spared.twins h once isRoot isTable h' once' reads thread contexts
    exact ⟨fun attr => (Act.Alike.answer has attr).goes twins,
      fun read => (Act.Alike.tryRead has.peer read).goes twins⟩

/-! ### A table that always panics -/

/-- A table that panics whatever it is asked. -/
def panicking : Table := .responder ⟨[], fun _ _ => .error ⟨"no answer"⟩⟩

/-- A table with one cell. -/
def oneCell : GridTable := .ofGrid ⟨"", ["h"], [["x"]]⟩

/-- The node of the one, -/
def panickingNode : Adapter := ⟨Arena.keyAt 0 1, .table (Arena.keyAt 0 1), none, 0, 0⟩

/-- and that of the other. -/
def oneCellNode : Adapter := ⟨Arena.keyAt 1 1, .table (Arena.keyAt 1 1), none, 1, 0⟩

/-- Both are attached to one tree. -/
def World.withPanicking : World Unit :=
  { World.attached () (.toolkit 0) (Context.start .default) panicking with
    tables := [some panicking, some (.grid oneCell)]
    peers := [⟨0, 0, false⟩, ⟨1, 0, false⟩]
    trees := [((Tree.empty 0).add panickingNode).add oneCellNode] }

theorem Moment.lived_of_panicking : ∃ m : Moment Unit, m.Lived ∧ m.world = .withPanicking ∧
    m.GivenOnce 0 := by
  obtain ⟨m, lived, e, untouched⟩ := Moment.lived_of_attached panicking Context.spawn_default
    (.responder _) () (.toolkit 0)
  have made := (Step.tables (m := m) (.create (g := oneCell.grid) (by
    simp [Grid.Rectangular, oneCell, GridTable.ofGrid]))).goes
  have attached := made.trans (Step.trees (.attach (t := 0) (k := Arena.keyAt 1 1)
    (by rw [e]; rfl) (show 1 < _ by rw [e]; exact Nat.one_lt_two) (by rw [e]; rfl)
    (by decide +kernel))).goes
  refine ⟨_, lived.goes attached, by rw [e]; rfl, ?_⟩
  refine ((lived.goes attached).corresponds (by rw [e]; rfl)).once ?_
  have removals := (untouched 0).2
  rw [Moment.removals] at removals ⊢
  simp only [List.filterMap_append, List.sum_append, removals]
  exact Nat.two_pow_pos 31

/-- What may come up there: the table that panics answers nothing. -/
def Census.withPanicking : Census where
  table p := p
  answers t q answer := t = 1 ∧ oneCell.answer q = answer
  Rows t row := t = 1 ∧ row < 1
  Columns t column := t = 1 ∧ column < 1
  nodes _ := {.table (Arena.keyAt 0 1), .table (Arena.keyAt 1 1), .row (Arena.keyAt 1 1) 0,
    .column (Arena.keyAt 1 1) 0, .cell (Arena.keyAt 1 1) 0 0}
  trees := 1
  bridges := 1
  rows {_ n} h row less := ⟨h.1, (show (1 : Nat) = n from h.2) ▸ less⟩
  columns {_ n} h column less := ⟨h.1, (show (1 : Nat) = n from h.2) ▸ less⟩
  fits _ := by decide

theorem Table.always_panicking {A : (q : Question) → q.Answer → Prop} : panicking.Always A := by
  have stays : ∀ {later : Table}, panicking.Asked later →
      ∃ past, later = .responder ⟨past, fun _ _ => .error ⟨"no answer"⟩⟩ := by
    intro later asked
    induction asked with
    | new => exact ⟨[], rfl⟩
    | ask _ checksOn now q ih =>
      obtain ⟨past, rfl⟩ := ih
      exact ⟨_, rfl⟩
  refine ⟨fun {later} asked {checksOn now q answer} answers => ?_⟩
  obtain ⟨past, rfl⟩ := stays asked
  cases answers

/-- Either table may have its node. -/
theorem Census.lists_withPanicking (n : Nat) (there : n ≤ 1) : Census.withPanicking.Lists 0
    ⟨Arena.keyAt n 1, .table (Arena.keyAt n 1), none, n, 0⟩ := by
  have family : Census.withPanicking.Family 0 (Arena.keyAt n 1) n := by
    refine ⟨Nat.one_pos, fun {row} may => ?_, fun {column} may => ?_, fun {row column} may may' => ?_⟩
    · obtain ⟨rfl, less⟩ := may
      obtain rfl := Nat.lt_one_iff.1 less
      decide
    · obtain ⟨rfl, less⟩ := may
      obtain rfl := Nat.lt_one_iff.1 less
      decide
    · obtain ⟨rfl, less⟩ := may
      obtain rfl := Nat.lt_one_iff.1 less
      obtain rfl := Nat.lt_one_iff.1 may'.2
      decide
  refine ⟨?_, family, fun _ => family, .inl rfl, fun may => may, Iff.rfl⟩
  match n, there with
  | 0, _ => decide
  | 1, _ => decide

theorem Census.holds_withPanicking {m : Moment Unit} (h : m.Lived) (e : m.world = .withPanicking) :
    Census.withPanicking.Holds m.world := by
  have indexed : ∀ {t : TreeId} {tree : Tree}, m.world.trees[t]? = some tree → tree.Indexed :=
    fun ht => (h.coherent ht).indexed
  rw [e] at indexed ⊢
  refine ⟨fun {c context} hc => ?_, fun {p peer} hp => ?_, fun {t table} ht => ?_, Nat.le_refl 1, indexed,
    fun {t tree k a} planted ht ha => ?_, Nat.le_refl 1, fun {b bridge} hb => ?_⟩
  · rcases c with _ | c <;> cases hc
    decide
  · rcases p with _ | _ | p <;> cases hp <;> rfl
  · rcases t with _ | _ | t <;> cases ht
    · exact Table.always_panicking
    · refine ⟨fun {later} asked {checksOn now q answer} answers => ⟨rfl, ?_⟩⟩
      rw [Table.eq_of_asked asked] at answers
      have same : Except.ok (oneCell.answer q) = (Except.ok answer : Except Panic q.Answer) := by
        cases q <;> exact answers
      exact Except.ok.inj same
  · obtain rfl : t = 0 := Nat.lt_one_iff.1 planted
    cases ht
    have first := (Tree.indexed_empty 0).add (a := panickingNode) rfl rfl
    rw [first.get?_add (a := oneCellNode) (by decide +kernel),
      (Tree.indexed_empty 0).get?_add (a := panickingNode) rfl] at ha
    split at ha
    · cases ha
      exact Census.lists_withPanicking 1 (by decide)
    · split at ha
      · cases ha
        exact Census.lists_withPanicking 0 (by decide)
      · simp [Tree.get?, Tree.empty, Arena.get?, Arena.empty] at ha
  · rcases b with _ | b <;> cases hb
    exact Nat.one_pos

/-- A table that always panics answers that it has no children, and the table beside it is as it was
and still counts its own. -/
theorem faulty_tables_are_contained_panicking :
    ∃ m m' : Moment Unit, m.Lived ∧ m.Goes m' ∧ Census.withPanicking.Holds m.world ∧
      Census.withPanicking.Allows (.children panickingNode) ∧ m.world.table? 0 = some panicking ∧
      m.world.Reads panickingNode 0 ∧ m.world.Reads oneCellNode 1 ∧
      panickingNode.children m.world = .done (.ok []) m'.world ∧ m.world.Spares 1 m'.world ∧
      (oneCellNode.answer .childCount m.world).value? = some (.count 2) ∧
      (oneCellNode.answer .childCount m.world).Alike (m.viewpoint 0 oneCellNode 1).Twins
        (m.viewpoint 0 oneCellNode 1).Answers (oneCellNode.answer .childCount m'.world) := by
  obtain ⟨m, lived, e, once⟩ := Moment.lived_of_panicking
  have contained := faulty_tables_are_contained (μ := Unit)
  have allows : Census.withPanicking.Allows (.children panickingNode) :=
    (Census.lists_withPanicking 0 (by decide)).node
  -- the table is asked once, on the thread of the context, and panics; that is told
  obtain ⟨log, run⟩ : ∃ log, panickingNode.children m.world = .done (.ok []) { m.world.setTable 0
      (some (panicking.ask m.world.checksOn m.world.thread .isDisposed).2) with log := log } :=
    ⟨_, by rw [e]; rfl⟩
  have asked := (Moment.Step.tables (m := m) (.ask (t := 0)
    (show m.world.table? 0 = some panicking by rw [e]; rfl) .isDisposed)).goes
  have goes := asked.trans (Moment.Step.aside _ m.world.thread m.world.checksOn log m.world.clients
    m.world.clock m.world.memory).goes
  rw [List.append_nil] at goes
  have stored : m.world.Stores 0 (Arena.keyAt 0 1) panickingNode := ⟨_, by rw [e]; rfl, rfl⟩
  have isRoot : m.world.Stores 0 (Arena.keyAt 1 1) oneCellNode :=
    ⟨_, by rw [e]; rfl, by decide +kernel⟩
  have reads : m.world.Reads oneCellNode 1 := ⟨_, by rw [e]; rfl, rfl⟩
  have apart : ¬m.world.Reads panickingNode 1 := by
    rintro ⟨peer, hp, same⟩
    rw [e] at hp
    cases hp
    cases same
  have spared : m.world.Spares 1 { m.world.setTable 0
      (some (panicking.ask m.world.checksOn m.world.thread .isDisposed).2) with log := log } := by
    obtain ⟨stands, nodes⟩ := @Containment.bystands _ contained m 1 (fun _ => False) lived
    have admitted : (m.bystander 1 fun _ => False).scope.Admits (.children panickingNode) :=
      nodes once stored apart
    have keeps := ((contained.spares admitted).keeps ⟨rfl, stands, .refl m.world⟩).progress
    have acts : (Request.children panickingNode).act m.world = (panickingNode.children m.world).bind
      fun _ => pure () := rfl
    rw [acts, run] at keeps
    exact keeps.1.leaves.2
  refine ⟨m, _, lived, goes, Census.holds_withPanicking lived e, allows, by rw [e]; rfl,
    ⟨_, by rw [e]; rfl, rfl⟩, reads, run, spared, by rw [e]; decide +kernel, ?_⟩
  refine (contained.answers lived (lived.goes goes) once once isRoot rfl reads spared rfl
    (fun c => ?_) isRoot rfl).1 .childCount
  show Option.Rel _ m.world.contexts[c]? m.world.contexts[c]?
  rw [e]
  have fits : (Context.start .default : Context Ticket).timeout.FitsClock 0 := by decide
  match c with
  | 0 => exact .some ⟨rfl, ⟨fits, fits⟩, rfl, rfl, rfl, fun _ => rfl⟩
  | _ + 1 => exact .none

end TableAccess
