import TableAccess.Proofs.Affinity
import TableAccess.Proofs.Bereft
import TableAccess.Proofs.HandOffs
import TableAccess.Proofs.Queries

/-!
# Why there is no value

Whoever asks a node for a value and is not on the toolkit thread gets the value or the reason why
there is none, and when several reasons hold at once it is always the same one that is told. What is
known of the peer comes first; then whether the context does what it is handed, and in time; then, as
the reading finds it, whether the table is there, and whether it has the row and the column. Who asks
without wanting to know the reason gets a value in the same cases.

## The model

* `Grid.Lacks` — what contents lack of what a node stands for; `Grid.Gives` — what is read of them.
* `World.Reveals` — what a reading of a table comes to in a world; `Reveals.unique` — it comes to
  nothing else.
* `Adapter.Reports` — what becomes of an accessor from outside the toolkit thread.
* `Act.Mirrors` — an accessor that has a value when another one has.
* `reasons_are_told_exactly` — the main statement.
-/

namespace TableAccess

variable {μ α β γ : Type} {m : Moment μ} {w : World μ} {a : Adapter} {b : TableId} {c : ContextId}
  {i : Identity} {k : NodeKey} {g : Grid} {row column : Nat}

/-! ### What contents lack -/

namespace Grid

/-- Contents lack what a node stands for, and why: the count is never larger than the index, and the
row of a cell comes before its column. -/
inductive Lacks (g : Grid) : Identity → Unavailable → Prop where
  /-- The row of a row node. -/
  | row {k : NodeKey} {row : Nat} (beyond : g.rows.length ≤ row) :
    Lacks g (.row k row) (.indexOutOfRange .row row g.rows.length)
  /-- The column of a column node. -/
  | column {k : NodeKey} {column : Nat} (beyond : g.headers.length ≤ column) :
    Lacks g (.column k column) (.indexOutOfRange .column column g.headers.length)
  /-- The row of a cell, whatever its column is. -/
  | cellRow {k : NodeKey} {row column : Nat} (beyond : g.rows.length ≤ row) :
    Lacks g (.cell k row column) (.indexOutOfRange .row row g.rows.length)
  /-- The column of a cell whose row is there. -/
  | cellColumn {k : NodeKey} {row column : Nat} (there : row < g.rows.length)
      (beyond : g.headers.length ≤ column) :
    Lacks g (.cell k row column) (.indexOutOfRange .column column g.headers.length)

variable {u u' : Unavailable}

/-- What contents have they do not lack. -/
theorem Lacks.not_includes (h : g.Lacks i u) : ¬g.Includes i := by
  cases h with
  | row beyond | column beyond => exact Nat.not_lt.2 beyond
  | cellRow beyond => exact fun has => Nat.not_lt.2 beyond has.1
  | cellColumn _ beyond => exact fun has => Nat.not_lt.2 beyond has.2

/-- They lack it for one reason. -/
theorem Lacks.unique (h : g.Lacks i u) (h' : g.Lacks i u') : u = u' := by
  cases h with
  | row | column =>
    cases h'
    rfl
  | cellRow beyond =>
    cases h' with
    | cellRow => rfl
    | cellColumn there => exact absurd there (Nat.not_lt.2 beyond)
  | cellColumn there =>
    cases h' with
    | cellRow beyond => exact absurd there (Nat.not_lt.2 beyond)
    | cellColumn => rfl

/-- What is read of contents about a node: the value if they have what it stands for, and else what
they lack. -/
inductive Gives (g : Grid) (i : Identity) (value : α) : Except Unavailable α → Prop where
  /-- They lack it. -/
  | lacks {u : Unavailable} (h : g.Lacks i u) : Gives g i value (.error u)
  /-- They have it. -/
  | has (h : g.Includes i) : Gives g i value (.ok value)

theorem Gives.unique {value : α} {r r' : Except Unavailable α} (h : g.Gives i value r)
    (h' : g.Gives i value r') : r = r' := by
  cases h with
  | lacks lacks =>
    cases h' with
    | lacks lacks' => rw [lacks.unique lacks']
    | has has => exact absurd has lacks.not_includes
  | has has =>
    cases h' with
    | lacks lacks => exact absurd has lacks.not_includes
    | has => rfl

theorem Gives.of_row {value : α} (k : NodeKey) (row : Nat) : g.Gives (.row k row) value
    (if row < g.rows.length then .ok value else .error (.indexOutOfRange .row row g.rows.length)) := by
  split
  · exact .has ‹_›
  · exact .lacks (.row (Nat.le_of_not_lt ‹_›))

theorem Gives.of_column {value : α} (k : NodeKey) (column : Nat) : g.Gives (.column k column) value
    (if column < g.headers.length then .ok value
      else .error (.indexOutOfRange .column column g.headers.length)) := by
  split
  · exact .has ‹_›
  · exact .lacks (.column (Nat.le_of_not_lt ‹_›))

end Grid

/-! ### Accessors -/

namespace Adapter

/-- An accessor of a node makes one reading of its table, which gives a value of the contents. -/
structure Accesses (a : Adapter) (act : Act μ (Except Unavailable β)) (value : Grid → β) : Prop where
  /-- So it reads. -/
  reads : ∃ (α : Type) (read : Inquiry (Except Unavailable α)) (f : α → β),
    act = (do return (← a.tryRead read).map f) ∧
    ∀ t : GridTable, ∃ result, read.Reads t result ∧
      t.grid.Gives a.identity (value t.grid) (result.map f)

/-- Accessors that make nothing of what they read. -/
theorem Accesses.of_tryRead {read : Inquiry (Except Unavailable β)} {value : Grid → β}
    (gives : ∀ t : GridTable, ∃ result, read.Reads t result ∧
      t.grid.Gives a.identity (value t.grid) result) :
    a.Accesses (a.tryRead read : Act μ _) value := by
  refine ⟨β, read, id, ?_, fun t => ?_⟩
  · simp only [Except.map_id, id_eq, bind_pure]
  · simp only [Except.map_id, id_eq]
    exact gives t

theorem tryNumber_accesses (h : a.identity = .column k column) :
    a.Accesses (Column.tryNumber a column : Act μ _) fun _ => column :=
  .of_tryRead fun _ => ⟨_, Reading.ofColumn_reads column rfl, h ▸ .of_column k column⟩

theorem tryHeader_accesses (h : a.identity = .column k column) :
    a.Accesses (Column.tryHeader a column : Act μ _) fun g => g.header? column :=
  .of_tryRead fun _ => ⟨_, Reading.ofColumn_reads column rfl, h ▸ .of_column k column⟩

theorem tryIndex_accesses (h : a.identity = .row k row) :
    a.Accesses (Row.tryIndex a row : Act μ _) fun _ => row :=
  .of_tryRead fun _ => ⟨_, Reading.ofRow_reads row rfl, h ▸ .of_row k row⟩

theorem tryShape_accesses (h : a.identity = .table k) : a.Accesses (Table.tryShape a : Act μ _)
    fun g => ⟨Grid.nonempty? g.name, g.rows.length, g.headers.length⟩ :=
  .of_tryRead fun _ => ⟨_, Reading.shape_reads, h ▸ .has trivial⟩

/-- The row of a cell is looked for before its column. -/
theorem cell_gives (k : NodeKey) (row column : Nat) (t : GridTable) :
    ∃ result, (Reading.cell row column).Reads t result ∧ t.grid.Gives (.cell k row column)
      (CellText.mk (t.grid.cell? row column) (t.grid.header? column)) result := by
  by_cases there : row < t.grid.rows.length
  · refine ⟨_, Reading.cell_reads_of_lt there column, ?_⟩
    split
    · exact .has ⟨there, ‹_›⟩
    · exact .lacks (.cellColumn there (Nat.le_of_not_lt ‹_›))
  · exact ⟨_, Reading.cell_reads_of_gone there column, .lacks (.cellRow (Nat.le_of_not_lt there))⟩

theorem tryText_accesses (h : a.identity = .cell k row column) :
    a.Accesses (Cell.tryText a row column : Act μ _) fun g => g.cell? row column := by
  refine ⟨CellText, Reading.cell row column, CellText.text, rfl, fun t => ?_⟩
  obtain ⟨result, reads, gives⟩ := cell_gives k row column t
  refine ⟨result, reads, ?_⟩
  rw [h]
  cases gives with
  | lacks lacks => exact .lacks lacks
  | has has => exact .has has

end Adapter

/-! ### What a reading finds -/

namespace World

/-- A table lets the thread of a context in, as long as it is there: it is editable, and bound to
nothing else. -/
def OpensTo (w : World μ) (b : TableId) (c : ContextId) : Prop :=
  ∀ table, w.table? b = some table →
    ∃ t : GridTable, table = .grid t ∧ ∀ owner, t.owner = some owner → owner = c

/-- What a reading about a node comes to in a world. -/
inductive Reveals (w : World μ) (b : TableId) (i : Identity) (value : Grid → β) :
    Except Unavailable β → Prop where
  /-- The table was dropped. -/
  | dropped (gone : w.table? b = none) : Reveals w b i value (.error .stalePeer)
  /-- The table was disposed of. -/
  | disposed {t : GridTable} (ht : w.table? b = some (.grid t)) (gone : t.disposed = true) :
    Reveals w b i value (.error .stalePeer)
  /-- The table is there, and what is told is what its contents give. -/
  | gives {t : GridTable} {result : Except Unavailable β} (ht : w.table? b = some (.grid t))
      (live : t.disposed = false) (h : t.grid.Gives i (value t.grid) result) :
    Reveals w b i value result

/-- It comes to nothing else. -/
theorem Reveals.unique {value : Grid → β} {r r' : Except Unavailable β} (h : w.Reveals b i value r)
    (h' : w.Reveals b i value r') : r = r' := by
  cases h with
  | dropped gone =>
    cases h' with
    | dropped | disposed => rfl
    | gives ht => cases gone.symm.trans ht
  | disposed ht gone =>
    cases h' with
    | dropped | disposed => rfl
    | gives ht' live =>
      cases ht.symm.trans ht'
      cases live.symm.trans gone
  | gives ht live gives =>
    cases h' with
    | dropped gone => cases gone.symm.trans ht
    | disposed ht' gone =>
      cases ht.symm.trans ht'
      cases live.symm.trans gone
    | gives ht' _ gives' =>
      cases ht.symm.trans ht'
      exact gives.unique gives'

end World

/-- A reading on the thread of the context ends at once. The caller is told what it reveals. -/
theorem consult_reveals {s : World μ} {read : Inquiry (Except Unavailable α)} {f : α → β}
    {value : Grid → β} (here : s.thread = .toolkit c) (opens : s.OpensTo b c)
    (gives : ∀ t : GridTable, ∃ result, read.Reads t result ∧
      t.grid.Gives i (value t.grid) (result.map f)) :
    ∃ outcome s', consult b (Reading.ofLive read) s = .done (.ok outcome) s' ∧
      s.Reveals b i value ((Peer.flatten (.ok outcome)).map f) := by
  cases ht : s.table? b with
  | none =>
    obtain ⟨outcome, s', run, stale⟩ := consult_of_gone (t := b) (w := s) (ht ▸ trivial) read
    exact ⟨outcome, s', run, stale ▸ .dropped ht⟩
  | some table =>
    obtain ⟨t, rfl, own⟩ := opens table ht
    by_cases gone : t.disposed = true
    · obtain ⟨outcome, s', run, stale⟩ :=
        consult_of_gone (t := b) (w := s) (ht ▸ Table.gone_of_disposed gone) read
      exact ⟨outcome, s', run, stale ▸ .disposed ht gone⟩
    · obtain ⟨result, reads, given⟩ := gives t
      have live : t.disposed = false := by simpa using gone
      have lets : t.checkThread s.checksOn s.thread = .ok () :=
        here ▸ GridTable.checkThread_of_owner own s.checksOn
      exact ⟨_, s, consult_run ht lets live reads, .gives ht live given⟩

/-! ### What becomes of an accessor -/

theorem World.unlatched_of_refers {p : PeerId}
    (refers : ∃ invalidated, w.peers[p]? = some ⟨b, c, invalidated⟩) (h : ¬w.Latched p) :
    w.Unlatched p b c := by
  obtain ⟨invalidated, hp⟩ := refers
  cases invalidated with
  | true => exact absurd (World.latched_of_invalidated hp) h
  | false => exact hp

theorem Context.accepts_of_room {τ : Type} {context : Context τ} (running : context.running = true)
    (room : context.HasRoom) (task : τ) : ∃ accepted, context.accept task = .ok accepted := by
  have accepts := accept_of_running running task
  rwa [if_pos room] at accepts

/-- A peer makes of an outcome what it says, and is latched if it says that the table is gone. -/
theorem Peer.settle_run (p : PeerId) (outcome : Except Unavailable (Option (Except Unavailable α)))
    (w : World μ) : ∃ w', settle p outcome w = .done (.ok (flatten outcome)) w' ∧
      (flatten outcome = .error .stalePeer → w'.Latched p) := by
  by_cases stale : flatten outcome = .error .stalePeer
  · obtain ⟨w', -, run, latched⟩ := invalidate_run (p := p) w
    refine ⟨w', ?_, fun _ => latched⟩
    rw [settle_of_stale stale, Act.bind_apply, run, stale]
    rfl
  · exact ⟨w, congrFun (settle_of_ne stale) w, fun e => absurd e stale⟩

namespace Adapter

/-- What becomes of an accessor that is asked from outside the thread of the context: it is told one
reason, or it is told the value. -/
structure Reports (a : Adapter) (act : Act μ (Except Unavailable β)) (value : Grid → β) (b : TableId)
    (c : ContextId) (w : World μ) : Prop where
  /-- If the peer is latched the table is stale, whatever the context does. -/
  latched : w.Latched a.peer → act w = .done (.ok (.error .stalePeer)) w
  /-- Otherwise a context that is stopped comes first, whether the table is there or not, -/
  stopped : ¬w.Latched a.peer →
    (∀ context, w.contexts[c]? = some context → context.running = false) →
    ∃ log, act w = .done (.ok (.error .contextStopped)) { w with log := log }
  /-- and one whose queue is full, -/
  full : ∀ {context : Context Ticket}, ¬w.Latched a.peer → w.contexts[c]? = some context →
    context.running = true → ¬context.HasRoom →
    ∃ log, act w = .done (.ok (.error .queueFull)) { w with log := log }
  /-- and one that does not do the reading in time. If it does, the caller is told what the reading
  reveals on its thread: a table that is dropped or disposed of by then is stale, and the peer is
  latched; and of a table that is there what the contents lack or give at this moment. -/
  accepted : ∀ {context : Context Ticket}, ¬w.Latched a.peer → w.contexts[c]? = some context →
    context.running = true → context.HasRoom → context.timeout.FitsClock w.clock →
    ∃ (γ : Type) (reading : Act μ γ) (handed : World μ)
      (next : Option (Except Panic γ) → Act μ (Except Unavailable β)),
      act w = .calling c w.tickets context.timeout reading handed next ∧
      (∀ later, ∃ log, next none later =
        .done (.ok (.error (.timedOut context.timeout))) { later with log := log }) ∧
      ∀ s : World μ, s.thread = .toolkit c → s.OpensTo b c → ∃ answer s' result,
        reading s = .done (.ok answer) s' ∧ s.Reveals b a.identity value result ∧
        (∀ other, s.Reveals b a.identity value other → other = result) ∧
        ∀ later, ∃ w', next (some (.ok answer)) later = .done (.ok result) w' ∧
          (result = .error .stalePeer → w'.Latched a.peer)
  /-- If the clock cannot tell how long to wait, the caller panics when its task was accepted. -/
  overruns : ∀ {context : Context Ticket}, ¬w.Latched a.peer → w.contexts[c]? = some context →
    context.running = true → context.HasRoom → ¬context.timeout.FitsClock w.clock →
    ∃ reading handed, act w = .leaving c w.tickets reading handed fun later =>
      .done (.error deadlineOverflow) later

/-- Through a peer that is not latched a reading is handed over. -/
theorem read_of_unlatched (hp : w.Unlatched a.peer b c) (read : Inquiry (Except Unavailable α))
    (f : α → β) : (do return (← a.tryRead read).map f : Act μ _) w =
      ((handOff c none (consult b (Reading.ofLive read)) w).bind (Peer.settle a.peer)).bind
        fun r => pure (r.map f) := by
  show (Peer.query a.peer read w).bind _ = _
  rw [Peer.query_of_unlatched hp]
  rfl

/-- Every accessor reports so. -/
theorem Accesses.reports {act : Act μ (Except Unavailable β)} {value : Grid → β}
    (h : a.Accesses act value) (off : w.thread ≠ .toolkit c)
    (refers : ∃ invalidated, w.peers[a.peer]? = some ⟨b, c, invalidated⟩) :
    a.Reports act value b c w := by
  obtain ⟨α, read, f, rfl, gives⟩ := h.reads
  -- what is known of the peer decides whether there is a hand-off
  have hands : ¬w.Latched a.peer → _ := fun unlatched =>
    read_of_unlatched (World.unlatched_of_refers refers unlatched) read f
  refine ⟨fun latched => ?_, fun unlatched stopped => ?_, fun {context} unlatched hc runs full => ?_,
    fun {context} unlatched hc runs room fits => ?_,
    fun {context} unlatched hc runs room overruns => ?_⟩
  · show (Peer.query a.peer read w).bind _ = _
    rw [Peer.query_of_latched latched]
    rfl
  · rw [hands unlatched]
    cases hc : w.contexts[c]? with
    | none =>
      rw [handOff_of_absent none _ hc]
      exact ⟨_, rfl⟩
    | some context =>
      rw [handOff_of_refused none off _ hc (Context.accept_of_stopped (stopped context hc) _)]
      exact ⟨_, rfl⟩
  · have refuses := Context.accept_of_running runs w.tickets
    rw [if_neg full] at refuses
    rw [hands unlatched, handOff_of_refused none off _ hc refuses]
    exact ⟨_, rfl⟩
  · obtain ⟨accepted, ok⟩ := Context.accepts_of_room runs room w.tickets
    obtain ⟨next, calls, answered, untold⟩ :=
      handOff_calls none off (consult b (Reading.ofLive read)) hc ok fits
    rw [hands unlatched, calls]
    refine ⟨_, _, _, _, rfl, fun later => ?_, fun s here opens => ?_⟩
    · obtain ⟨e, told⟩ := untold later
      refine ⟨(later.tell e).log, ?_⟩
      simp only [told, Progress.bind]
      rfl
    · obtain ⟨outcome, s', run, reveals⟩ := consult_reveals here opens gives
      refine ⟨outcome, s', _, run, reveals, fun other told => told.unique reveals, fun later => ?_⟩
      obtain ⟨w', settles, latches⟩ := Peer.settle_run a.peer (.ok outcome) later
      refine ⟨w', ?_, fun stale => latches ?_⟩
      · simp only [answered, ofWork, Progress.bind, settles]
        rfl
      · generalize Peer.flatten (.ok outcome) = r at stale ⊢
        cases r with
        | ok value => cases stale
        | error u => exact congrArg Except.error (Except.error.inj stale)
  · obtain ⟨accepted, ok⟩ := Context.accepts_of_room runs room w.tickets
    rw [hands unlatched, handOff_overruns none off _ hc ok overruns]
    exact ⟨_, _, rfl⟩

end Adapter

/-! ### Accessors that do not tell the reason -/

/-- An act does what another one does, and has a value exactly when that one has one that comes with
it. Else the reason is at most told aside. -/
structure Act.Mirrors (act : Act μ (Option γ)) (other : Act μ (Except Unavailable α))
    (value : α → Option γ) : Prop where
  /-- So it goes on. -/
  goesOn : ∃ rest, act = other >>= rest ∧ ∀ result w, ∃ answer log,
    rest result w = .done (.ok answer) { w with log := log } ∧
    ∀ x, answer = some x ↔ ∃ v, result = .ok v ∧ value v = some x

namespace Act.Mirrors

variable {δ : Type} {other : Act μ (Except Unavailable α)}

theorem of_degrade (a : Adapter) (question : String) (other : Act μ (Except Unavailable α)) :
    (do a.degrade question (← other) : Act μ _).Mirrors other some := by
  refine ⟨fun result => a.degrade question result, rfl, fun result w => ?_⟩
  cases result with
  | ok v => exact ⟨some v, w.log, rfl, fun x => by simp⟩
  | error u => exact ⟨none, _, rfl, fun x => by simp⟩

/-- Something else is made of the value. -/
theorem map {act : Act μ (Option γ)} {value : α → Option γ} (h : act.Mirrors other value)
    {f : Option γ → Option δ} (absent : f none = none) :
    (do return f (← act) : Act μ _).Mirrors other fun v => f (value v) := by
  obtain ⟨rest, rfl, ends⟩ := h.goesOn
  refine ⟨fun result => do return f (← rest result), by rw [bind_assoc], fun result w => ?_⟩
  obtain ⟨answer, log, run, valued⟩ := ends result w
  refine ⟨f answer, log, ?_, fun x => ⟨fun made => ?_, ?_⟩⟩
  · show (rest result w).bind _ = _
    rw [run]
    rfl
  · cases answer with
    | none => cases absent.symm.trans made
    | some y =>
      obtain ⟨v, ok, e⟩ := (valued y).1 rfl
      exact ⟨v, ok, e ▸ made⟩
  · rintro ⟨v, ok, made⟩
    cases e : value v with
    | none =>
      rw [e, absent] at made
      cases made
    | some y =>
      rw [(valued y).2 ⟨v, ok, e⟩, ← e]
      exact made

end Act.Mirrors

namespace Adapter

/-- The accessors of a node that have a value exactly when a reading has one: the reading that another
accessor tells the outcome of, or else their own. -/
structure Mirrored (μ : Type) (a : Adapter) : Prop where
  /-- The position of a column, -/
  number : ∀ column, (Column.number a column : Act μ _).Mirrors (Column.tryNumber a column) some
  /-- its header, if it has one, -/
  header : ∀ column, (Column.header a column : Act μ _).Mirrors (Column.tryHeader a column) id
  /-- how many columns it spans, -/
  span : ∀ column, (Column.span a column : Act μ _).Mirrors (Column.tryNumber a column) fun _ => some 1
  /-- and how many cells it has. -/
  columnCells : ∀ column, (Column.rowCount a column : Act μ _).Mirrors
    (a.tryRead (Reading.rowsOfColumn column)) some
  /-- The position of a row, -/
  index : ∀ row, (Row.index a row : Act μ _).Mirrors (Row.tryIndex a row) some
  /-- and how many cells it has. -/
  rowCells : ∀ row, (Row.columnCount a row : Act μ _).Mirrors
    (a.tryRead (Reading.columnsOfRow row)) some
  /-- The row of a cell, -/
  rowIndex : ∀ row column, (Cell.rowIndex a row column : Act μ _).Mirrors
    (Cell.trySnapshot a row column) fun _ => some row
  /-- its column, -/
  columnIndex : ∀ row column, (Cell.columnIndex a row column : Act μ _).Mirrors
    (Cell.trySnapshot a row column) fun _ => some column
  /-- its text, if it has one, -/
  text : ∀ row column, (Cell.text a row column : Act μ _).Mirrors (Cell.tryText a row column) id
  /-- and the header of its column, if that has one. -/
  cellHeader : ∀ row column, (Cell.header a row column : Act μ _).Mirrors
    (Cell.trySnapshot a row column) CellText.header
  /-- Name and counts of a table, -/
  shape : (Table.shape a : Act μ _).Mirrors (Table.tryShape a) some
  /-- the number of its rows, -/
  rowCount : (Table.rowCount a : Act μ _).Mirrors (a.tryRead Reading.rowCount) some
  /-- and the number of its columns. -/
  columnCount : (Table.columnCount a : Act μ _).Mirrors (a.tryRead Reading.columnCount) some

/-- The text of a cell is what the accessor with the reason has for it. -/
theorem text_eq (a : Adapter) (row column : Nat) : (Cell.text a row column : Act μ _) =
    (Cell.tryText a row column >>= a.degrade "text") >>= fun text => pure text.join := by
  simp only [Cell.text, Cell.snapshot, Cell.tryText, bind_assoc, pure_bind]
  congr 1
  funext result
  cases result <;> rfl

theorem header_eq (a : Adapter) (column : Nat) : (Column.header a column : Act μ _) =
    (Column.tryHeader a column >>= a.degrade "header_text") >>= fun text => pure text.join := by
  simp only [Column.header, bind_assoc]

theorem mirrored (a : Adapter) : a.Mirrored μ where
  number _ := .of_degrade a _ _
  header column := by
    rw [header_eq]
    exact (Act.Mirrors.of_degrade a _ _).map rfl
  span _ := (Act.Mirrors.of_degrade a _ _).map rfl
  columnCells _ := .of_degrade a _ _
  index _ := .of_degrade a _ _
  rowCells _ := .of_degrade a _ _
  rowIndex _ _ := (Act.Mirrors.of_degrade a _ _).map rfl
  columnIndex _ _ := (Act.Mirrors.of_degrade a _ _).map rfl
  text row column := by
    rw [text_eq]
    exact (Act.Mirrors.of_degrade a _ _).map rfl
  cellHeader _ _ := (Act.Mirrors.of_degrade a _ _).map rfl
  shape := .of_degrade a _ _
  rowCount := .of_degrade a _ _
  columnCount := .of_degrade a _ _

end Adapter

/-! ### Reasons -/

/-- What the accessors of a node come to that are asked from outside the thread of the context. Those
that tell the reason read the contents of the table; those that do not have a value in the same
cases. -/
structure Moment.TellsReasons (m : Moment μ) (a : Adapter) (b : TableId) (c : ContextId) : Prop where
  /-- The position of a column, -/
  number : ∀ {k : NodeKey} {column : Nat}, a.identity = .column k column →
    a.Reports (Adapter.Column.tryNumber a column) (fun _ => column) b c m.world
  /-- and its header. -/
  header : ∀ {k : NodeKey} {column : Nat}, a.identity = .column k column →
    a.Reports (Adapter.Column.tryHeader a column) (·.header? column) b c m.world
  /-- The position of a row. -/
  index : ∀ {k : NodeKey} {row : Nat}, a.identity = .row k row →
    a.Reports (Adapter.Row.tryIndex a row) (fun _ => row) b c m.world
  /-- The text of a cell. -/
  text : ∀ {k : NodeKey} {row column : Nat}, a.identity = .cell k row column →
    a.Reports (Adapter.Cell.tryText a row column) (·.cell? row column) b c m.world
  /-- Name and counts of a table. -/
  shape : ∀ {k : NodeKey}, a.identity = .table k → a.Reports (Adapter.Table.tryShape a)
    (fun g => ⟨Grid.nonempty? g.name, g.rows.length, g.headers.length⟩) b c m.world
  /-- Those that do not tell the reason. -/
  mirrored : a.Mirrored μ

/-- Reasons are told exactly. Whoever asks a node for a value from outside the toolkit thread is told
that its table is stale if the peer is latched; else that the context is stopped, full or late; else
that the table is stale if it is gone when it is read; else which index is out of range, its own, with
the count of that moment, the row of a cell before its column; and else the value. -/
theorem reasons_are_told_exactly {tree : Tree} (h : m.Lived) (made : .made a ∈ m.past)
    (ht : m.world.trees[a.tree]? = some tree) (off : m.world.thread ≠ .toolkit tree.context) :
    ∃ b, (∃ invalidated, m.world.peers[a.peer]? = some ⟨b, tree.context, invalidated⟩) ∧
      m.TellsReasons a b tree.context := by
  obtain ⟨⟨b, c, invalidated⟩, hp, rfl⟩ := h.referred.context made ht
  have refers : ∃ invalidated, m.world.peers[a.peer]? = some ⟨b, tree.context, invalidated⟩ := ⟨_, hp⟩
  exact ⟨b, refers, {
    number := fun isColumn => (Adapter.tryNumber_accesses isColumn).reports off refers
    header := fun isColumn => (Adapter.tryHeader_accesses isColumn).reports off refers
    index := fun isRow => (Adapter.tryIndex_accesses isRow).reports off refers
    text := fun isCell => (Adapter.tryText_accesses isCell).reports off refers
    shape := fun isTable => (Adapter.tryShape_accesses isTable).reports off refers
    mirrored := a.mirrored }⟩

/-- So it is with the first row of a table that has none. -/
theorem reasons_are_told_exactly_row : ∃ (m : Moment Unit) (a : Adapter), m.Lived ∧
    .made a ∈ m.past ∧ m.world.thread = .client 0 ∧ m.TellsReasons a 0 0 ∧
    ({ m.world with thread := .toolkit 0 } : World Unit).Reveals 0 a.identity (fun _ => 0)
      (.error (.indexOutOfRange .row 0 0)) := by
  obtain ⟨m, lived, e, -⟩ := Moment.lived_of_part (.grid (.ofGrid ⟨"", [], []⟩))
    Context.spawn_default (.grid (by simp [Grid.Rectangular])) () (.client 0) (.inl rfl)
  have made := lived.keyed.stored (t := 0) (k := Arena.keyAt 1 1) (by rw [e]; rfl) rfl
  have client : m.world.thread = .client 0 := by rw [e]; rfl
  obtain ⟨b, ⟨_, hp⟩, tells⟩ := reasons_are_told_exactly lived made (by rw [e]; rfl)
    (by simp [client])
  rw [e] at hp
  cases hp
  refine ⟨m, _, lived, made, client, tells, .gives (t := .ofGrid ⟨"", [], []⟩) ?_ rfl ?_⟩
  · rw [e]
    rfl
  · exact .lacks (.row (Nat.le_refl 0))

/-- Beyond the clock no reason is told and no value: the context runs, its queue is empty and the
table is there, but who asks for its name and counts panics. -/
theorem no_reason_is_told_beyond_clock : ∃ (m : Moment Unit) (a : Adapter), m.Lived ∧
    .made a ∈ m.past ∧ m.world.thread = .client 0 ∧ ¬m.world.Latched a.peer ∧
    m.world.peers[a.peer]? = some ⟨0, 0, false⟩ ∧ m.world.contexts = [.start .endless] ∧
    m.world.table? 0 = some (.grid (.ofGrid ⟨"", [], []⟩)) ∧
    ∃ task w', Adapter.Table.tryShape a m.world =
      .leaving 0 0 task w' fun later => .done (.error deadlineOverflow) later := by
  obtain ⟨m, lived, e, -⟩ := Moment.lived_of_attached (.grid (.ofGrid ⟨"", [], []⟩))
    Context.spawn_endless (.grid (by simp [Grid.Rectangular])) () (.client 0)
  let a : Adapter := ⟨Arena.keyAt 0 1, .table (Arena.keyAt 0 1), none, 0, 0⟩
  have made : .made a ∈ m.past := lived.keyed.stored (t := 0) (k := Arena.keyAt 0 1) (by rw [e]; rfl) rfl
  have hp : m.world.peers[a.peer]? = some ⟨0, 0, false⟩ := by rw [e]; rfl
  have there : m.world.contexts[0]? = some (.start .endless) := by rw [e]; rfl
  have room : (Context.start .endless : Context Ticket).HasRoom := by decide
  have late : ¬(Context.start .endless : Context Ticket).timeout.FitsClock 0 := by decide
  have unlatched : ¬m.world.Latched a.peer := World.not_latched_iff.2 ⟨0, 0, hp⟩
  have off : m.world.thread ≠ .toolkit 0 := by
    rw [e]
    exact Thread.noConfusion
  have reports := (Adapter.tryShape_accesses (a := a) rfl).reports off ⟨_, hp⟩
  obtain ⟨task, w', overruns⟩ := reports.overruns unlatched there rfl room (by rw [e]; exact late)
  refine ⟨m, a, lived, made, by rw [e]; rfl, unlatched, hp, by rw [e]; rfl, by rw [e]; rfl, task, w', ?_⟩
  rw [overruns, e]
  rfl

end TableAccess
