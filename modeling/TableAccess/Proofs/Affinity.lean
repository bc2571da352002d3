import TableAccess.Proofs.Grids
import TableAccess.Proofs.HandOffs
import TableAccess.Proofs.Latches
import TableAccess.Proofs.Wards

/-!
# Threads that touch tables

Tables are asked on the thread of their own context only: whatever is requested of nodes, trees and
bridges, on whatever thread, and whatever the others do in between. So a table that is bound to the
context of its tree, or to none, never finds a stranger asking, and nothing that is requested of it
ends with a panic of its context. A table that is bound to another context lets nobody in who asks for
it here: readings have no value then, but the table counts as valid, and nobody panics but the task.

## The model

* `Moment.LedThrough` — what can be found on the way to a moment.
* `Moment.ward` — some tables of a tree; `LedThrough.stands` — they are in the care of its context.
* `Request.asks` — whatever is requested of a tree.
* `Table.LetsIn`, `World.Bars` — a table that lets the thread of a context in, and one that does not.
* `tables_are_touched_on_their_thread` — the main statement.
-/

namespace TableAccess

variable {μ α : Type} {m last : Moment μ} {t : TreeId} {tree : Tree} {a : Adapter} {p : PeerId}
  {w w' : World μ}

/-! ### On the way to a moment -/

namespace Moment

/-- On the way to a moment there was such a world. -/
def LedThrough (last : Moment μ) (w : World μ) : Prop :=
  ∃ m : Moment μ, m.Lived ∧ m.Goes last ∧ m.world = w

/-- All nodes of a tree that were made under a table key read tables of some kind. -/
def ReadsOnly (last : Moment μ) (t : TreeId) (Own : TableId → Prop) (k : NodeKey) : Prop :=
  ∀ a : Adapter, .made a ∈ last.past → a.tree = t → a.tableKey = k →
    ∀ peer, last.world.peers[a.peer]? = some peer → Own peer.table

/-- Some tables of a tree, with all nodes they have had so far. -/
def ward (last : Moment μ) (t : TreeId) {c : ContextId} (manners : Manners c)
    (Own : TableId → Prop) : Ward where
  tree := t
  context := c
  manners := manners
  Own := Own
  Peers p := ∀ peer, last.world.peers[p]? = some peer → Own peer.table ∧ peer.context = c
  Keys := last.ReadsOnly t Own
  Bridges b := ∀ bridge, last.world.bridges[b]? = some bridge → bridge.tree = t

variable {Own : TableId → Prop} {manners : Manners tree.context}

/-- The peer of a node reads on the context of the tree. -/
theorem Lived.ward_peers (h : last.Lived) (ht : last.world.trees[t]? = some tree)
    (made : .made a ∈ last.past) (here : a.tree = t) (own : last.ReadsOnly t Own a.tableKey) :
    (last.ward t manners Own).Peers a.peer := by
  intro peer hp
  obtain ⟨peer', hp', context⟩ := h.referred.context made (here.symm ▸ ht)
  cases hp.symm.trans hp'
  exact ⟨own a made here rfl peer hp, context⟩

theorem Lived.own_key (h : m.Lived) (made : .made a ∈ m.past) (isTable : a.role = .table) :
    a.tableKey = a.key :=
  (h.keyed.own made (Identity.eq_of_role_table isTable)).symm

/-- A tree had the same context all the way. -/
theorem LedThrough.stands (led : last.LedThrough w) (ht : last.world.trees[t]? = some tree)
    (tables : ∀ {t table}, Own t → w.table? t = some table → manners.Tables table) :
    (last.ward t manners Own).Stands w := by
  obtain ⟨m, h, later, rfl⟩ := led
  have lived := h.goes later
  refine ⟨fun {p peer} may hp => ?_, tables, fun ht' => (h.coherent ht').indexed,
    fun {tree' k a} ht' ha own => ?_, fun {b bridge} spans hb => ?_⟩
  · obtain ⟨invalidated, hp', -⟩ := later.keeps_peer hp
    exact may { peer with invalidated := invalidated } hp'
  · have made := h.keyed.stored ht' ha
    have here : a.tree = t := (h.coherent ht').here ha
    exact ⟨lived.ward_peers ht (later.remembers made) here own, here, h.own_key made⟩
  · obtain ⟨bridge', hb', same⟩ := later.keeps_bridge hb
    rw [← same]
    exact spans _ hb'

end Moment

/-! ### What is requested of a tree -/

namespace Request

/-- A request is about a tree, about a bridge over it, or about a node that was made in it. -/
def Concerns (t : TreeId) (w : World μ) : Request → Prop
  | .attachTo t' _ | .treeUpdate t' _ | .outline t' _ | .detach t' _ | .prune t' => t' = t
  | .attach b _ | .query b _ _ | .nodeUpdate b _ | .initialTree b | .ignoreAction b _ _ =>
    ∃ bridge, w.bridges[b]? = some bridge ∧ bridge.tree = t
  | .row a _ | .column a _ | .cell a _ _ | .rows a | .columns a | .children a | .treeChildren a
  | .answer a _ | .build a | .outlineUnder a _ => a.tree = t

/-- The table keys that a request may come upon: that of the node that is asked, or any. -/
def ComesUpon (request : Request) (k : NodeKey) : Prop :=
  ∀ a, request.node? = some a → k = a.tableKey

variable {request : Request} {Own : TableId → Prop} {manners : Manners tree.context}
  {Finds : World μ → Prop}

/-- What is asked of some tables stays with them. -/
theorem admitted (h : m.Lived) (later : m.Goes last) (ht : last.world.trees[t]? = some tree)
    (fits : request.Fits m) (concerns : request.Concerns t m.world) (apart : request.table? = none)
    (own : ∀ k, request.ComesUpon k → last.ReadsOnly t Own k) :
    (last.ward t manners Own).scope.Admits request := by
  have node : ∀ {a}, request.node? = some a → a.tree = t →
      (last.ward t manners Own).scope.Node a.tree a := by
    intro a asked here
    have made := later.remembers (fits.node a asked)
    have keys := own a.tableKey fun b same => by rw [asked] at same; cases same; rfl
    rw [here]
    exact Ward.node ((h.goes later).ward_peers ht made here keys) keys here (h.own_key (fits.node a asked))
  have spanned : ∀ {b}, (∃ bridge, m.world.bridges[b]? = some bridge ∧ bridge.tree = t) →
      (last.ward t manners Own).Bridges b := by
    rintro b ⟨bridge, hb, here⟩ bridge' hb'
    obtain ⟨bridge'', hb'', same⟩ := later.keeps_bridge hb
    cases hb'.symm.trans hb''
    exact same.trans here
  have reach : (∀ k, request.ComesUpon k) → ∀ {t'}, t' = t → ∀ k,
      (last.ward t manners Own).scope.Reaches t' k :=
    fun all _ here _ => ⟨here, fun k => own k (all k)⟩
  cases request with
  | attachTo | attach => cases apart
  | row a | column a => exact ⟨node rfl concerns, fits.kind, fun _ => trivial⟩
  | cell a => exact ⟨node rfl concerns, fits.kind, fun _ => trivial, fun _ => trivial⟩
  | rows a | columns a => exact ⟨node rfl concerns, fits.kind⟩
  | children a | treeChildren a | answer a | build a | outlineUnder a => exact node rfl concerns
  | query | nodeUpdate | ignoreAction => exact ⟨spanned concerns, fun _ here => reach nofun here _⟩
  | initialTree => exact ⟨spanned concerns, fun _ _ _ here => reach nofun here _⟩
  | treeUpdate => exact reach nofun concerns _
  | outline | prune => exact ⟨trivial, reach nofun concerns⟩
  | detach => exact ⟨trivial, trivial⟩

variable (Own manners) in
/-- Whatever is requested, tables are asked on the thread of the context of the tree only. -/
theorem asks (h : m.Lived) (later : m.Goes last) (ht : last.world.trees[t]? = some tree)
    (fits : request.Fits m) (concerns : request.Concerns t m.world)
    (own : ∀ k, request.ComesUpon k → last.ReadsOnly t Own k)
    (stands : ∀ {w}, Finds w → (last.ward t manners Own).Stands w) (found : Finds m.world) :
    request.act.KeepsFrom (.asking Finds tree.context manners.Panics) m.world m.world
      (· ∈ callerPanics) fun _ => True := by
  cases apart : request.table? with
  | none =>
    exact (last.ward t manners Own).request stands (stands found)
      (admitted h later ht fits concerns apart own)
  -- no table is asked when one is attached, and it is over at once
  | some table =>
    cases request with
    | attachTo t' table' =>
      obtain ⟨result, w', run, attached⟩ := attachTable_run t' table' m.world
      refine .bind (.of_done (Q := fun _ => True) run
        ⟨attached.thread, .of_tables (.refl _) attached.tables, attached.tells⟩ ?_)
        fun _ _ _ along _ => .pure along trivial
      cases result with
      | ok => trivial
      | error => exact attached.panics
    | attach b table' =>
      obtain ⟨result, w', run, attached⟩ := Bridge.attach_run b table' m.world
      refine .bind (.of_done (Q := fun _ => True) run
        ⟨attached.thread, .of_tables (.refl _) attached.tables, attached.tells⟩ ?_)
        fun _ _ _ along _ => .pure along trivial
      cases result with
      | ok => trivial
      | error => exact attached.panics
    | _ => cases apart

end Request

/-! ### What is asked of a node -/

namespace Adapter

variable (Own : TableId → Prop) (manners : Manners tree.context) {Finds : World μ → Prop}
  {read : Inquiry (Except Unavailable α)} (h : m.Lived) (later : m.Goes last)
  (ht : last.world.trees[t]? = some tree) (made : .made a ∈ m.past) (here : a.tree = t)
  (own : last.ReadsOnly t Own a.tableKey)
  (stands : ∀ {w}, Finds w → (last.ward t manners Own).Stands w) (found : Finds m.world)

include h later ht made here own stands found

/-- A reading of a node asks its table on the thread of the context of the tree only, -/
theorem tryRead_asks (honest : Reading.Honest read)
    (steady : Reading.Steady manners.Answers manners.Panics read) :
    (a.tryRead read).KeepsFrom (.asking Finds tree.context manners.Panics) m.world m.world
      (· ∈ callerPanics) fun r => r = .error .handOffPanicked → ∃ panic, manners.Panics panic :=
  (last.ward t manners Own).reading stands (stands found)
    ((h.goes later).ward_peers ht (later.remembers made) here own) honest steady

/-- and so does the question whether it is valid. -/
theorem isValid_asks :
    a.isValid.KeepsFrom (.asking Finds tree.context manners.Panics) m.world m.world
      (· ∈ callerPanics) fun _ => True :=
  (last.ward t manners Own).validity stands (stands found)
    ((h.goes later).ward_peers ht (later.remembers made) here own)

end Adapter

/-! ### Tables that let a context in -/

variable {c : ContextId}

/-- An editable table that is bound to a context, or to none; a list can hold all its headers. -/
def Table.LetsIn (c : ContextId) : Table → Prop
  | .grid g => (∀ owner, g.owner = some owner → owner = c) ∧ Room.Fits .text g.grid.headers.length
  | .responder _ => False

/-- A list can hold what there are so many of. -/
def Question.Fits : (q : Question) → q.Answer → Prop
  | .columnCount, count => Room.Fits .text count
  | _, _ => True

theorem GridTable.checkThread_of_owner {g : GridTable} (own : ∀ owner, g.owner = some owner → owner = c)
    (checksOn : Bool) : g.checkThread checksOn (.toolkit c) = .ok () := by
  unfold checkThread
  cases e : g.owner with
  | none => rfl
  | some owner =>
    rw [own owner e]
    exact Affinity.check_eq_ok_iff.2 fun _ => rfl

/-- Such a table answers its context. -/
theorem Table.LetsIn.answers {table : Table} (h : table.LetsIn c) (checksOn : Bool) (q : Question) :
    (table.ask checksOn (.toolkit c) q).2 = table ∧
      ∃ answer, (table.ask checksOn (.toolkit c) q).1 = .ok answer ∧ q.Fits answer := by
  cases table with
  | responder r => exact h.elim
  | grid g =>
    obtain ⟨own, fits⟩ := h
    refine ⟨rfl, g.answer q, ?_, ?_⟩
    · cases q <;> simp [ask, GridTable.ask, GridTable.checkThread_of_owner own, Except.map]
    · cases q <;> first | exact fits | trivial

/-- It answers whatever its context asks, so the context never panics. -/
def Manners.open (c : ContextId) : Manners c where
  Tables := Table.LetsIn c
  Answers := Question.Fits
  Panics _ := False
  asked lets checksOn q := (lets.answers checksOn q).1.symm ▸ lets
  answered lets checksOn q := by
    obtain ⟨-, answer, e, fits⟩ := lets.answers checksOn q
    rw [e]
    exact fits

/-- All headers are read into one list. -/
theorem Reading.steady_headers {T : Panic → Prop} : Steady Question.Fits T headers := by
  refine steady_ofInquiry fun count fits => ?_
  have from_ : ∀ count first, (headersFrom first count).EndsIn Question.Fits T fun _ => True := by
    intro count
    induction count with
    | zero => exact fun _ => .pure trivial
    | succ count ih =>
      exact fun first => Inquiry.EndsIn.question.bind fun _ _ => (ih _).bind fun _ _ => .pure trivial
  have room : Inquiry.makeRoom .text count = .done () := if_pos fits
  show (headersOf count).EndsIn Question.Fits T _
  unfold headersOf
  rw [room]
  exact from_ count 0

/-- What nodes read of their tables. -/
inductive Reading.OfNodes : {α : Type} → Inquiry (Except Unavailable α) → Prop where
  /-- A single answer, -/
  | answer (q : Question) : OfNodes (ofInquiry (Inquiry.question q))
  /-- name and counts together, -/
  | shape : OfNodes shape
  /-- all headers, -/
  | headers : OfNodes headers
  /-- whether a cell is there, -/
  | hasCell (row column : Nat) : OfNodes (hasCell row column)
  /-- what is about one row, -/
  | rowIndex (row : Nat) : OfNodes (rowIndex row)
  | columnsOfRow (row : Nat) : OfNodes (columnsOfRow row)
  /-- what is about one column, -/
  | columnIndex (column : Nat) : OfNodes (columnIndex column)
  | headerText (column : Nat) : OfNodes (headerText column)
  | rowsOfColumn (column : Nat) : OfNodes (rowsOfColumn column)
  /-- and text and header of a cell. -/
  | cell (row column : Nat) : OfNodes (cell row column)

theorem Reading.OfNodes.honest {read : Inquiry (Except Unavailable α)} (h : OfNodes read) :
    Honest read := by
  cases h with
  | answer | shape | headers | hasCell => exact honest_ofInquiry _
  | rowIndex | columnsOfRow => exact honest_ofRow _ _
  | columnIndex | headerText | rowsOfColumn => exact honest_ofColumn _ _
  | cell => exact honest_cell _ _

theorem Reading.OfNodes.steady {read : Inquiry (Except Unavailable α)} (h : OfNodes read)
    {T : Panic → Prop} : Steady Question.Fits T read := by
  cases h with
  | answer => exact steady_ofInquiry .question
  | shape => exact steady_shape
  | headers => exact steady_headers
  | hasCell => exact steady_hasCell
  | rowIndex => exact steady_ofRow (.pure trivial)
  | columnsOfRow => exact steady_ofRow .question
  | columnIndex => exact steady_ofColumn (.pure trivial)
  | headerText => exact steady_headerText
  | rowsOfColumn => exact steady_ofColumn .question
  | cell => exact steady_cell

/-! ### Tables that keep a context out -/

/-- A reading that begins with a question before which an editable table checks the thread. -/
def Inquiry.Checked : Inquiry α → Prop
  | .ask q _ => q ≠ .isDisposed
  | _ => False

/-- A table that is bound to another context does not let the thread of a context in. -/
theorem GridTable.not_allows_of_other {g : GridTable} {owner : ContextId} (bound : g.owner = some owner)
    (other : owner ≠ c) : ¬g.Allows true (.toolkit c) := fun may => by
  cases may rfl owner bound
  exact other rfl

/-- A peer reads a table on a context to which the table is not bound: it is bound to another one, it
is there and was not disposed of, and checks are on. -/
structure World.Bars (p : PeerId) (t : TableId) (c : ContextId) (w : World μ) : Prop where
  unlatched : w.Unlatched p t c
  bound : ∃ g owner, w.table? t = some (.grid g) ∧ g.disposed = false ∧ g.owner = some owner ∧
    owner ≠ c
  checks : w.checksOn = true

namespace World.Bars

variable {read : Inquiry (Except Unavailable α)}

/-- A task that reads such a table is stopped by the check. -/
theorem consult_run (h : w.Bars p t c) (here : w.thread = .toolkit c) (checked : read.Checked) :
    ∃ message, consult t (Reading.ofLive read) w = .done (.error (Affinity.violation message)) w := by
  obtain ⟨g, owner, ht, live, bound, other⟩ := h.bound
  cases read with
  | done | fail => exact checked.elim
  | ask q next =>
    have stopped := GridTable.ask_of_not_allows (GridTable.not_allows_of_other bound other) checked
    have shown : g.ask w.checksOn w.thread .isDisposed = .ok false := by
      simp [GridTable.ask, GridTable.answer, live]
    have asked : (Reading.ofLive (.ask q next)).run w.checksOn w.thread (.grid g) =
        (.error GridTable.intrusion, .grid g) := by
      rw [run_ofLive]
      simp only [Table.ask, shown, Inquiry.run]
      rw [h.checks, here, stopped]
    refine ⟨"toolkit table accessed outside the toolkit context", ?_⟩
    rw [consult_grid ht, asked]
    rfl

/-- A task that reads nothing is not. -/
theorem consult_nothing (h : w.Bars p t c) :
    consult t (Reading.ofLive Reading.nothing) w = .done (.ok (some (.ok ()))) w := by
  obtain ⟨g, owner, ht, live, -⟩ := h.bound
  have shown : g.ask w.checksOn w.thread .isDisposed = .ok false := by
    simp [GridTable.ask, GridTable.answer, live]
  rw [consult_grid ht, run_ofLive]
  simp only [Table.ask, shown]
  rfl

theorem of_same (h : w.Bars p t c) (peers : w'.peers = w.peers) (tables : w'.tables = w.tables)
    (checks : w'.checksOn = w.checksOn) : w'.Bars p t c := by
  obtain ⟨unlatched, bound, on⟩ := h
  refine ⟨?_, ?_, checks.trans on⟩
  · unfold Unlatched
    rwa [peers]
  · unfold table?
    rwa [tables]

end World.Bars

/-- A table keeps its reader out. -/
def Conduct.barring (p : PeerId) (t : TableId) (c : ContextId) : Conduct μ := .keeping (World.Bars p t c)

theorem Conduct.barring_plain : (Conduct.barring p t c : Conduct μ).Plain :=
  ⟨id, fun _ _ along => along.leaves.of_same rfl rfl rfl⟩

namespace World.Bars

variable {read : Inquiry (Except Unavailable α)}

/-- A reading ends as its task does, or with a failure of the context. Nobody panics but the task, if
the clock can tell until when the context is to be waited for. -/
theorem query {V : Except Unavailable α → Prop} (h : w.Bars p t c) (inTime : w.InTime c)
    (consults : ∀ {w₀ w : World μ}, (Conduct.barring p t c).Along w₀ w → w.thread = .toolkit c →
      (consult t (Reading.ofLive read)).KeepsFrom (.barring p t c) w₀ w (fun _ => True)
        fun found => ∃ a, found = some (.ok a) ∧ V (.ok a))
    (fails : ∀ u : Unavailable, u.isContextFailure = true → V (.error u)) :
    (Peer.query p read).KeepsFrom (.barring p t c) w w (fun _ => False) V := by
  have plain : (Conduct.barring p t c : Conduct μ).Plain := Conduct.barring_plain
  refine .of_eq ?_ (Peer.query_of_unlatched h.unlatched read)
  refine .bind (.handOff plain ⟨rfl, h⟩ (fun here => consults ⟨rfl, h.of_same rfl rfl rfl⟩ here)
    (fun found here => consults ⟨rfl, found⟩ here) fun hc late => late (inTime hc))
    fun w₀ w outcome along answered => ?_
  cases outcome with
  | ok found =>
    obtain ⟨a, rfl, value⟩ := answered
    exact .pure along value
  | error u =>
    cases u with
    | stalePeer => cases answered.1
    | _ => exact .pure along (fails _ answered.1)

/-- A reading that the check stops ends with a failure of the context. -/
theorem query_of_checked (h : w.Bars p t c) (inTime : w.InTime c) (checked : read.Checked) :
    (Peer.query p read).KeepsFrom (.barring p t c) w w (fun _ => False)
      fun r => ∃ u, r = .error u ∧ u.isContextFailure = true := by
  refine h.query inTime (fun along here => ?_) fun u failure => ⟨u, rfl, failure⟩
  obtain ⟨message, run⟩ := along.leaves.consult_run here checked
  exact .of_done run along trivial

/-- A reading is one hand-off, and the panic of its task is what it is answered with. -/
theorem query_eq (h : w.Bars p t c) (read : Inquiry (Except Unavailable α)) :
    ∃ f : Except Unavailable (Option (Except Unavailable α)) → Act μ (Except Unavailable α),
      Peer.query p read w = (handOff c none (consult t (Reading.ofLive read)) w).bind f ∧
        ∀ later, f (.error .handOffPanicked) later = .done (.ok (.error .handOffPanicked)) later := by
  exact ⟨_, Peer.query_of_unlatched h.unlatched read, fun _ => rfl⟩

/-- Who asks on the thread of the context itself is told of the panic at once. -/
theorem query_here (h : w.Bars p t c) (here : w.thread = .toolkit c) {context : Context Ticket}
    (hc : w.contexts[c]? = some context) (checked : read.Checked) :
    ∃ w', Peer.query p read w = .done (.ok (.error .handOffPanicked)) w' := by
  have bars : (w.tell (.span .handOff)).Bars p t c := h.of_same rfl rfl rfl
  obtain ⟨message, run⟩ := bars.consult_run here checked
  have told : handOff c none (consult t (Reading.ofLive read)) w = .done (.ok (.error .handOffPanicked))
      ((w.tell (.span .handOff)).tell (.inlineTaskPanicked context.name)) := by
    rw [handOff_of_here none _ here hc]
    unfold runInline
    simp only [Act.bind_apply, Act.attempt, run, Progress.attempt, Progress.bind]
    rfl
  obtain ⟨f, asks, answers⟩ := h.query_eq read
  exact ⟨_, by rw [asks, told]; exact answers _⟩

/-- Whoever asks from elsewhere is told of it when the task has been done. -/
theorem query_elsewhere (h : w.Bars p t c) (inTime : w.InTime c) (off : w.thread ≠ .toolkit c)
    {context accepted : Context Ticket} (hc : w.contexts[c]? = some context)
    (ok : context.accept w.tickets = .ok accepted) (read : Inquiry (Except Unavailable α)) :
    ∃ next, Peer.query p read w = .calling c w.tickets context.timeout
        (consult t (Reading.ofLive read)) (w.handed c accepted) next ∧
      ∀ panic later, next (some (.error panic)) later = .done (.ok (.error .handOffPanicked)) later := by
  obtain ⟨next, calls, answered, -⟩ :=
    handOff_calls none off (consult t (Reading.ofLive read)) hc ok (inTime hc)
  obtain ⟨f, asks, answers⟩ := h.query_eq read
  refine ⟨fun answer later => (next answer later).bind f, ?_, fun panic later => ?_⟩
  · rw [asks, calls]
    rfl
  · show (next (some (.error panic)) later).bind f = _
    rw [answered]
    exact answers later

/-- Such a table counts as valid. -/
theorem isValid (h : w.Bars p t c) (inTime : w.InTime c) :
    (Peer.isValid p).KeepsFrom (.barring p t c) w w (fun _ => False) (· = true) := by
  have there : (w.table? t).isNone ≠ true := by
    obtain ⟨g, owner, ht, -⟩ := h.bound
    simp [ht]
  have reads : (Peer.query p Reading.nothing).KeepsFrom (.barring p t c) w w (fun _ => False)
      (· ≠ .error .stalePeer) := by
    refine h.query inTime (fun along _ => ?_) fun u failure => ?_
    · exact .of_done along.leaves.consult_nothing along ⟨(), rfl, nofun⟩
    · rintro ⟨⟩
      cases failure
  unfold Peer.isValid
  refine .get ?_
  rw [show w.peers[p]? = some ⟨t, c, false⟩ from h.unlatched]
  dsimp only
  rw [if_neg Bool.false_ne_true, if_neg there]
  refine .bind reads fun w₀ w r along told => ?_
  cases r with
  | ok _ => exact .pure along rfl
  | error u =>
    cases u with
    | stalePeer => exact absurd rfl told
    | _ =>
      -- nothing else is known than that the peer was not latched
      unfold Peer.isInvalidated
      refine .bind (.get (Q := (· = false)) ?_) fun _ _ b along known => .pure along (by simp [known])
      rw [show w.peers[p]? = some ⟨t, c, false⟩ from along.leaves.unlatched]
      exact .pure along rfl

end World.Bars

/-- What the nodes of a table answer that keeps its reader out. -/
structure Adapter.Withheld (a : Adapter) (t : TableId) (c : ContextId) (w : World μ) : Prop where
  /-- The table counts as valid. -/
  valid : a.isValid.KeepsFrom (.barring a.peer t c) w w (fun _ => False) (· = true)
  /-- Who asks for a value with the reason why there is none is told of the context, -/
  tryRead : ∀ {α : Type} {read : Inquiry (Except Unavailable α)}, read.Checked →
    (a.tryRead read).KeepsFrom (.barring a.peer t c) w w (fun _ => False)
      fun r => ∃ u, r = .error u ∧ u.isContextFailure = true
  /-- and it is that its task has panicked, if the task was done: on the thread of the context itself, -/
  here : ∀ {α : Type} {read : Inquiry (Except Unavailable α)} {context : Context Ticket},
    read.Checked → w.thread = .toolkit c → w.contexts[c]? = some context →
    ∃ w', a.tryRead read w = .done (.ok (.error .handOffPanicked)) w'
  /-- and likewise from elsewhere. The task panics in the check, whenever it is done. -/
  elsewhere : ∀ {α : Type} {read : Inquiry (Except Unavailable α)}
    {context accepted : Context Ticket}, read.Checked → w.thread ≠ .toolkit c →
    w.contexts[c]? = some context → context.accept w.tickets = .ok accepted →
    ∃ (task : Act μ (Option (Except Unavailable α)))
      (next : Option (Except Panic (Option (Except Unavailable α))) → Act μ (Except Unavailable α)),
      a.tryRead read w = .calling c w.tickets context.timeout task (w.handed c accepted) next ∧
      (∀ {w : World μ}, w.Bars a.peer t c → w.thread = .toolkit c →
        ∃ message, task w = .done (.error (Affinity.violation message)) w) ∧
      ∀ panic later, next (some (.error panic)) later = .done (.ok (.error .handOffPanicked)) later
  /-- Who asks just for a value has none: -/
  read : ∀ {α : Type} (question : String) (read : Inquiry (Except Unavailable α)), read.Checked →
    (a.read question read).KeepsFrom (.barring a.peer t c) w w (fun _ => False) (· = none)
  /-- none of the counts, -/
  counts : (Adapter.Table.rowCount a).KeepsFrom (.barring a.peer t c) w w (fun _ => False) (· = none) ∧
    (Adapter.Table.columnCount a).KeepsFrom (.barring a.peer t c) w w (fun _ => False) (· = none)
  /-- of the name, -/
  name : (Adapter.Table.label a).KeepsFrom (.barring a.peer t c) w w (fun _ => False) (· = none)
  /-- of the headers -/
  headers : (Adapter.Table.columnHeaders a).KeepsFrom (.barring a.peer t c) w w (fun _ => False)
      (· = []) ∧
    ∀ column, (Adapter.Column.header a column).KeepsFrom (.barring a.peer t c) w w (fun _ => False)
      (· = none)
  /-- and of the cells. -/
  cells : ∀ row column, (Adapter.Cell.text a row column).KeepsFrom (.barring a.peer t c) w w
    (fun _ => False) (· = none)

namespace World.Bars

/-- The table is not read, but counts as valid. -/
theorem withheld (h : w.Bars a.peer t c) (inTime : w.InTime c) : a.Withheld t c w := by
  have tried : ∀ {α : Type} {read : Inquiry (Except Unavailable α)}, read.Checked →
      (a.tryRead read).KeepsFrom (.barring a.peer t c) w w (fun _ => False)
        fun r => ∃ u, r = .error u ∧ u.isContextFailure = true := fun checked =>
    h.query_of_checked inTime checked
  -- a reading that has failed is told, and counts as no value
  have missing : ∀ {α : Type} (question : String) (read : Inquiry (Except Unavailable α)),
      read.Checked →
      (a.read question read).KeepsFrom (.barring a.peer t c) w w (fun _ => False) (· = none) := by
    intro α question read checked
    refine .bind (tried checked) fun w₀ w r along failed => ?_
    obtain ⟨u, rfl, -⟩ := failed
    exact .tell (.pure (Conduct.barring_plain.told along _ fun _ => ⟨Room.overflow, trivial⟩) rfl)
  have none_of : ∀ {α β : Type} {act : Act μ (Option α)} (f : Option α → β),
      act.KeepsFrom (.barring a.peer t c) w w (fun _ => False) (· = none) →
      (do return f (← act)).KeepsFrom (.barring a.peer t c) w w (fun _ => False) (· = f none) := by
    intro α β act f keeps
    refine .bind keeps fun _ _ r along missing => ?_
    subst missing
    exact .pure along rfl
  have header : ∀ column, Adapter.Column.header (μ := μ) a column =
      do return (← a.read "header_text" (Reading.headerText column)).join := fun column =>
    (bind_assoc (a.tryRead (Reading.headerText column)) (a.degrade "header_text") _).symm
  exact {
    valid := h.isValid inTime
    tryRead := tried
    here := fun checked here hc => h.query_here here hc checked
    elsewhere := fun {α read context accepted} checked off hc ok => by
      obtain ⟨next, calls, told⟩ := h.query_elsewhere inTime off hc ok read
      exact ⟨_, next, calls, fun bars here => bars.consult_run here checked, told⟩
    read := missing
    counts := ⟨missing _ Reading.rowCount nofun, missing _ Reading.columnCount nofun⟩
    name := none_of (·.bind Shape.name) (missing _ Reading.shape nofun)
    headers := by
      refine ⟨none_of (·.getD []) (missing _ Reading.headers nofun), fun column => ?_⟩
      rw [header]
      exact none_of Option.join (missing _ _ nofun)
    cells := fun row column => none_of (·.bind CellText.text) (missing _ (Reading.cell row column) nofun) }

end World.Bars

/-! ### The guarantee -/

/-- What is told about the check of the thread is no panic of a caller. -/
theorem Affinity.violation_notMem (message : String) : violation message ∉ callerPanics := by
  have others : ∀ p ∈ callerPanics, p.text.toList.head? ≠ some 't' := by decide +kernel
  have first : "toolkit thread affinity violation: ".toList.head? = some 't' := by decide +kernel
  refine fun mem => others _ mem ?_
  unfold violation
  rw [String.toList_append, String.toList_append, List.head?_append, List.head?_append, first]
  rfl

/-- On the way to a moment there was such a world, and its tables let a context in. -/
def Moment.OpenThrough (last : Moment μ) (c : ContextId) (Own : TableId → Prop) (w : World μ) : Prop :=
  last.LedThrough w ∧ ∀ {t table}, Own t → w.table? t = some table → table.LetsIn c

/-- Tables are touched on their threads only, by whatever is asked of nodes, trees and bridges, on any
thread, with whatever the others do meanwhile. -/
structure Confined (μ : Type) : Prop where
  /-- Whatever is requested of a tree asks tables on the thread of its context only, and there is
  nothing else that it does to tables. -/
  requests : ∀ {m last : Moment μ} {t : TreeId} {tree : Tree} {request : Request}, m.Lived →
    m.Goes last → last.world.trees[t]? = some tree → request.Fits m → request.Concerns t m.world →
    request.act.KeepsFrom (.asking last.LedThrough tree.context fun _ => True) m.world m.world
      (· ∈ callerPanics) fun _ => True
  /-- So does each reading of a node, -/
  readings : ∀ {m last : Moment μ} {t : TreeId} {tree : Tree} {a : Adapter} {α : Type}
    {read : Inquiry (Except Unavailable α)}, m.Lived → m.Goes last →
    last.world.trees[t]? = some tree → .made a ∈ m.past → a.tree = t → Reading.OfNodes read →
    (a.tryRead read).KeepsFrom (.asking last.LedThrough tree.context fun _ => True) m.world m.world
      (· ∈ callerPanics) fun _ => True
  /-- and whoever asks whether it is valid. -/
  validity : ∀ {m last : Moment μ} {t : TreeId} {tree : Tree} {a : Adapter}, m.Lived →
    m.Goes last → last.world.trees[t]? = some tree → .made a ∈ m.past → a.tree = t →
    a.isValid.KeepsFrom (.asking last.LedThrough tree.context fun _ => True) m.world m.world
      (· ∈ callerPanics) fun _ => True
  /-- A table that remembers who asked it remembers no other thread. -/
  remembered : ∀ {w w' : World μ} {c : ContextId} {t : TableId} {r : Responder},
    w.AsksOn (.toolkit c) w' → w.table? t = some (.responder r) →
    ∃ calls, w'.table? t = some (.responder { r with past := calls ++ r.past }) ∧
      ∀ call ∈ calls, call.thread = .toolkit c
  /-- No caller ends in a violation. -/
  spared : ∀ message, Affinity.violation message ∉ callerPanics
  /-- If the tables of a tree let its context in, or those under one table key where a request is about
  one node, then no task panics, and nobody is told so; -/
  unharmed : ∀ {m last : Moment μ} {t : TreeId} {tree : Tree} {request : Request}
    {Own : TableId → Prop}, m.Lived → m.Goes last → last.world.trees[t]? = some tree →
    request.Fits m → request.Concerns t m.world →
    (∀ k, request.ComesUpon k → last.ReadsOnly t Own k) → last.OpenThrough tree.context Own m.world →
    request.act.KeepsFrom (.asking (last.OpenThrough tree.context Own) tree.context fun _ => False)
      m.world m.world (· ∈ callerPanics) fun _ => True
  /-- nor is a panic what a reading is answered with. -/
  unharmedReadings : ∀ {m last : Moment μ} {t : TreeId} {tree : Tree} {a : Adapter}
    {Own : TableId → Prop} {α : Type} {read : Inquiry (Except Unavailable α)}, m.Lived →
    m.Goes last → last.world.trees[t]? = some tree → .made a ∈ m.past → a.tree = t →
    last.ReadsOnly t Own a.tableKey → last.OpenThrough tree.context Own m.world →
    Reading.OfNodes read →
    (a.tryRead read).KeepsFrom (.asking (last.OpenThrough tree.context Own) tree.context fun _ => False)
      m.world m.world (· ∈ callerPanics) fun r => r ≠ .error .handOffPanicked
  /-- If a table is bound to another context, it is not read, but counts as valid, as long as the clock
  can tell until when the context is to be waited for. -/
  withheld : ∀ {w : World μ} {a : Adapter} {t : TableId} {c : ContextId}, w.Bars a.peer t c →
    w.InTime c → a.Withheld t c w

/-- Tables are asked on the thread of the context of their tree. -/
theorem tables_are_touched_on_their_thread : Confined μ where
  requests h later ht fits concerns :=
    Request.asks (fun _ => True) (.any _) h later ht fits concerns
      (fun _ _ _ _ _ _ _ _ => trivial) (fun led => led.stands ht fun _ _ => trivial) ⟨_, h, later, rfl⟩
  readings h later ht made here ofNodes :=
    (Adapter.tryRead_asks (fun _ => True) (.any _) h later ht made here
      (fun _ _ _ _ _ _ => trivial) (fun led => led.stands ht fun _ _ => trivial) ⟨_, h, later, rfl⟩
      ofNodes.honest (Reading.steady_unknown _)).mono fun _ _ => trivial
  validity h later ht made here :=
    Adapter.isValid_asks (fun _ => True) (.any _) h later ht made here
      (fun _ _ _ _ _ _ => trivial) (fun led => led.stands ht fun _ _ => trivial) ⟨_, h, later, rfl⟩
  remembered {w w' c t r} asks ht := by
    have asked := asks.asked t
    rw [ht] at asked
    generalize w'.table? t = later at asked ⊢
    cases asked with
    | some asked =>
      obtain ⟨calls, rfl, there⟩ := asked.remembered
      exact ⟨calls, rfl, there⟩
  spared := Affinity.violation_notMem
  unharmed h later ht fits concerns own found :=
    Request.asks _ (.open _) h later ht fits concerns own
      (fun found => found.1.stands ht found.2) found
  unharmedReadings h later ht made here own found ofNodes :=
    (Adapter.tryRead_asks _ (.open _) h later ht made here own
      (fun found => found.1.stands ht found.2) found ofNodes.honest ofNodes.steady).mono
      fun _ panicked e => (panicked e).elim fun _ never => never
  withheld bars inTime := bars.withheld inTime

/-- A table that answers nothing. -/
def silent : Responder := ⟨[], fun _ _ => .error ⟨"no answer"⟩⟩

/-- The node of the one table that is attached. -/
def attachedNode : Adapter := ⟨Arena.keyAt 0 1, .table (Arena.keyAt 0 1), none, 0, 0⟩

/-- The thread of a context counts the children of a table: the table was asked by that thread. Counting
the rows of a table that is bound to another context ends with the panic of the task. -/
theorem tables_are_touched_on_their_thread_counting :
    (∃ (m : Moment Unit) (w' : World Unit) (calls : List Call), m.Lived ∧
      (Request.answer attachedNode .childCount).act m.world = .done (.ok ()) w' ∧
      w'.table? 0 = some (.responder { silent with past := calls }) ∧ calls ≠ [] ∧
      ∀ call ∈ calls, call.thread = .toolkit 0) ∧
    ∃ w w' : World Unit, w.Bars 0 0 0 ∧
      attachedNode.tryRead Reading.rowCount w = .done (.ok (.error .handOffPanicked)) w' := by
  have confined := tables_are_touched_on_their_thread (μ := Unit)
  constructor
  · obtain ⟨m, lived, e, -⟩ := Moment.lived_of_attached (.responder silent) Context.spawn_default
      (.responder _) () (.toolkit 0)
    have ht : m.world.trees[0]? = some ((Tree.empty 0).add attachedNode) := by rw [e]; rfl
    have made := lived.keyed.stored (t := 0) (k := Arena.keyAt 0 1) ht rfl
    have fits : (Request.answer attachedNode .childCount).Fits m :=
      ⟨fun a asked => by cases asked; exact made, trivial, nofun⟩
    have keeps := (confined.requests lived (.refl m) ht fits rfl).progress
    obtain ⟨w', run, there⟩ : ∃ w', (Request.answer attachedNode .childCount).act m.world =
        .done (.ok ()) w' ∧ w'.table? 0 =
          some (.responder { silent with past := [⟨.toolkit 0, .isDisposed⟩] }) := by
      rw [e]
      exact ⟨_, rfl, rfl⟩
    rw [run] at keeps
    obtain ⟨calls, after, threads⟩ := confined.remembered (t := 0) (r := silent) keeps.1.leaves.1
      (by rw [e]; rfl)
    have same := there.symm.trans after
    simp only [silent, List.append_nil, Option.some.injEq, Table.responder.injEq, Responder.mk.injEq,
      and_true] at same
    subst same
    exact ⟨m, w', _, lived, run, there, by simp, threads⟩
  · let w : World Unit := .attached () (.toolkit 0) (Context.start .default)
      (.grid ⟨⟨"", [""], [[""]]⟩, some 1, false⟩)
    have bars : w.Bars attachedNode.peer 0 0 := ⟨rfl, ⟨_, 1, rfl, rfl, rfl, nofun⟩, rfl⟩
    have inTime : w.InTime 0 := fun hc => by
      cases hc
      decide
    have checked : Reading.rowCount.Checked := nofun
    obtain ⟨w', answers⟩ := (confined.withheld bars inTime).here checked rfl rfl
    exact ⟨w, w', bars, answers⟩

/-- If the clock cannot tell until when the context is to be waited for, the caller panics: here the
table is bound to the second of two contexts, and a thread outside both counts its rows. -/
theorem reader_kept_out_panics : ∃ m : Moment Unit, m.Lived ∧ m.world.thread = .client 0 ∧
    m.world.trees[0]? = some ((Tree.empty 0).add attachedNode) ∧ m.world.Bars attachedNode.peer 0 0 ∧
    m.world.contexts = [.start .endless, .start .default] ∧
    ∃ task w', Adapter.Table.rowCount attachedNode m.world =
      .leaving 0 0 task w' fun later => .done (.error deadlineOverflow) later := by
  let grid : Grid := ⟨"", [""], [[""]]⟩
  have rectangular : grid.Rectangular := by simp [grid, Grid.Rectangular]
  obtain ⟨⟨past, w⟩, attached, e, -⟩ :=
    Moment.lived_of_attached (.grid (.ofGrid grid)) Context.spawn_endless (.grid rectangular) () (.client 0)
  subst e
  have both := attached.goes (Moment.Step.contexts (.spawn Context.spawn_default)).goes
  have bound := both.goes (Moment.Step.tables (.bind (t := 0) (g := .ofGrid grid) rfl 1)).goes
  let w : World Unit :=
    { World.attached () (.client 0) (.start .endless) (.grid { GridTable.ofGrid grid with owner := some 1 })
      with contexts := [.start .endless, .start .default] }
  obtain ⟨m, lived, e⟩ : ∃ m : Moment Unit, m.Lived ∧ m.world = w := ⟨_, bound, rfl⟩
  have bars : w.Bars attachedNode.peer 0 0 := ⟨rfl, ⟨_, 1, rfl, rfl, rfl, Nat.one_ne_zero⟩, rfl⟩
  have off : w.thread ≠ .toolkit 0 := Thread.noConfusion
  have first : w.contexts[0]? = some (.start .endless) := rfl
  have late : ¬(Context.start .endless : Context Ticket).timeout.FitsClock w.clock := by decide
  obtain ⟨task, overruns⟩ := Peer.query_overruns bars.unlatched off first rfl late Reading.rowCount
  refine ⟨m, lived, ?_⟩
  rw [e]
  have counts : Adapter.Table.rowCount attachedNode w =
      (Peer.query attachedNode.peer Reading.rowCount w).bind _ := rfl
  rw [overruns] at counts
  exact ⟨rfl, rfl, bars, rfl, task, _, counts⟩

end TableAccess
