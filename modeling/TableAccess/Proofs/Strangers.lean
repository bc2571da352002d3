import TableAccess.Proofs.Grids
import TableAccess.Proofs.Peers
import TableAccess.Session.TableCalls

/-!
# Strangers

A table that is bound to a context stays bound to that context, whatever is done afterwards, until it
is dropped. While threads are checked, a thread other than the one of the context does nothing to the
table and learns nothing of its contents: whatever it asks and whatever edit it tries ends with the
panic of the check, in the world in which it began. One question is answered on every thread, and that
is whether the table was disposed of.

## The model

* `Step.bound` — what one deed does to a bound table.
* `World.BoundTo` — a table is bound to a context, as long as it is there.
* `Moment.TurnsAway` — what the executing thread gets from a table that it may not touch.
* `bound_tables_turn_strangers_away` — the main statement.
-/

namespace TableAccess

variable {μ α β : Type} {t : TableId} {c : ContextId} {g : GridTable}

/-! ### Bound for good -/

/-- A table that is bound stays as it is when it is bound again. -/
theorem GridTable.bindTo_of_bound (owner : g.owner = some c) (c' : ContextId) : g.bindTo c' = g := by
  cases g
  cases owner
  rfl

theorem GridTable.allows_of_checkThread {checksOn : Bool} {now : Thread}
    (opens : g.checkThread checksOn now = .ok ()) : g.Allows checksOn now := by
  by_contra not
  rw [checkThread_of_not_allows not] at opens
  cases opens

/-- A table is bound to a context, as long as it is there. -/
structure World.BoundTo (w : World μ) (t : TableId) (c : ContextId) : Prop where
  /-- It was made. -/
  made : t < w.tables.length
  /-- It is bound. -/
  bound : ∀ table, w.table? t = some table → ∃ g, table = .grid g ∧ g.owner = some c

namespace Moment

variable {m m' : Moment μ}

/-- What one deed does to a table that is bound: it is dropped, or stays as it is, or the thread of its
context has edited it or disposed of it. -/
theorem Step.bound (h : m.Step m') (ht : m.world.table? t = some (.grid g))
    (owner : g.owner = some c) :
    m'.world.table? t = none ∨ m'.world.table? t = some (.grid g) ∨
      (m.world.checksOn = true → m.world.thread = .toolkit c) ∧
        ∃ g', m'.world.table? t = some (.grid g') ∧ g'.owner = some c := by
  have there := World.table?_lt ht
  -- another table takes the place of the one that the deed is about
  have placed : ∀ (t' : TableId) (new : Option Table), t' = t ∧ (m.world.setTable t' new).table? t = new ∨
      (m.world.setTable t' new).table? t = some (.grid g) := by
    intro t' new
    unfold World.table? World.setTable
    rw [List.getElem?_set]
    by_cases here : t' = t
    · subst here
      rw [if_pos rfl, if_pos there]
      exact .inl ⟨rfl, rfl⟩
    · rw [if_neg here]
      exact .inr ht
  cases h with
  | tables h =>
    cases h with
    | create | createOther =>
      refine .inr (.inl ?_)
      show ((_ ++ _)[t]?).join = _
      rw [List.getElem?_append_left there]
      exact ht
    | @bind t' g' ht' c' =>
      rcases placed t' (some (.grid (g'.bindTo c'))) with ⟨rfl, new⟩ | same
      · cases ht.symm.trans ht'
        refine .inr (.inl ?_)
        show (m.world.setTable t' _).table? t' = _
        rw [new, g.bindTo_of_bound owner]
      · exact .inr (.inl same)
    | @edit t' g₁ g₂ e reply ht' done =>
      rcases placed t' (some (.grid g₂)) with ⟨rfl, new⟩ | same
      · cases ht.symm.trans ht'
        obtain ⟨opens, contents, -, rfl⟩ := GridTable.edit_eq_ok done
        exact .inr (.inr ⟨fun on => GridTable.allows_of_checkThread opens on c owner, _, new, owner⟩)
      · exact .inr (.inl same)
    | @dispose t' g₁ g₂ ht' done =>
      rcases placed t' (some (.grid g₂)) with ⟨rfl, new⟩ | same
      · cases ht.symm.trans ht'
        obtain ⟨opens, rfl⟩ := GridTable.dispose_eq_ok done
        exact .inr (.inr ⟨fun on => GridTable.allows_of_checkThread opens on c owner, _, new, owner⟩)
      · exact .inr (.inl same)
    | @ask t' table ht' q | @askDisposed t' table ht' =>
      rcases placed t' (some (table.ask _ _ _).2) with ⟨rfl, new⟩ | same
      · cases ht.symm.trans ht'
        exact .inr (.inl new)
      · exact .inr (.inl same)
    | drop t' =>
      rcases placed t' none with ⟨rfl, gone⟩ | same
      · exact .inl gone
      · exact .inr (.inl same)
  | _ => exact .inr (.inl ht)

theorem Step.boundTo (h : m.Step m') (bound : m.world.BoundTo t c) : m'.world.BoundTo t c := by
  refine ⟨Nat.lt_of_lt_of_le bound.made h.tables_length, fun table ht' => ?_⟩
  cases ht : m.world.table? t with
  | none =>
    rw [h.dropped ht bound.made] at ht'
    cases ht'
  | some before =>
    obtain ⟨g, rfl, owner⟩ := bound.bound before ht
    rcases h.bound ht owner with gone | same | ⟨-, g', new, owner'⟩
    · cases gone.symm.trans ht'
    · cases same.symm.trans ht'
      exact ⟨g, rfl, owner⟩
    · cases new.symm.trans ht'
      exact ⟨g', rfl, owner'⟩

/-- It stays bound to that context, whatever is done. -/
theorem Goes.boundTo (h : m.Goes m') (bound : m.world.BoundTo t c) : m'.world.BoundTo t c :=
  h.keeps (P := fun m => m.world.BoundTo t c) bound fun step bound => step.boundTo bound

end Moment

end TableAccess

namespace TableAccess.Session

variable {α β : Type} {t : TableId} {g : GridTable} {w : World Desk}

/-! ### What a stranger gets -/

/-- Work that panics does nothing more. -/
theorem run_bind_of_panic {work : Work α} {p : Panic} {w' : World Desk}
    (panics : work.run w = .done (.error p) w') (f : α → Work β) :
    (work >>= f).run w = .done (.error p) w' := by
  rw [ExceptT.run_bind, Act.bind_apply, panics]
  rfl

theorem run_gridAt (ht : w.table? t = some (.grid g)) :
    (gridAt t).run w = .done (.ok (.ok g)) w := by
  have found : (tableAt t).run w = .done (.ok (.ok (.grid g))) w := by
    show (orComplain .noTable (w.table? t) : Work Table).run w = _
    rw [ht]
    rfl
  unfold gridAt
  rw [ExceptT.run_bind, Act.bind_apply, found]
  rfl

theorem run_inquire_of_panic {inquiry : Inquiry α} {p : Panic}
    (panics : consult t inquiry w = .done (.error p) w) :
    (inquire t inquiry).run w = .done (.error p) w := by
  refine run_bind_of_panic ?_ _
  show (consult t inquiry w).bind _ = _
  rw [panics]
  rfl

theorem run_inquire {inquiry : Inquiry α} {a : α} {w' : World Desk}
    (answers : consult t inquiry w = .done (.ok (some a)) w') :
    (inquire t inquiry).run w = .done (.ok (.ok a)) w' := by
  have acts : (act (consult t inquiry)).run w = .done (.ok (.ok (some a))) w' := by
    show (consult t inquiry w).bind _ = _
    rw [answers]
    rfl
  unfold inquire
  rw [ExceptT.run_bind, Act.bind_apply, acts]
  rfl

theorem run_editTable_of_panic {e : Edit} {p : Panic} (ht : w.table? t = some (.grid g))
    (panics : g.edit w.checksOn w.thread e = .error p) :
    (editTable t e).run w = .done (.error p) w := by
  unfold editTable
  rw [ExceptT.run_bind, Act.bind_apply, run_gridAt ht]
  show (orPanic (g.edit w.checksOn w.thread e) >>= _ : Work Answer).run w = _
  rw [panics]
  exact run_bind_of_panic rfl _

theorem run_disposeTable_of_panic {p : Panic} (ht : w.table? t = some (.grid g))
    (panics : g.dispose w.checksOn w.thread = .error p) :
    (disposeTable t).run w = .done (.error p) w := by
  unfold disposeTable
  rw [ExceptT.run_bind, Act.bind_apply, run_gridAt ht]
  show (orPanic (g.dispose w.checksOn w.thread) >>= _ : Work Answer).run w = _
  rw [panics]
  exact run_bind_of_panic rfl _

end TableAccess.Session

namespace TableAccess

section Strangers

variable {α : Type} {t : TableId} {c : ContextId} {g : GridTable}

/-- An inquiry that begins with a question before which the thread is checked ends there. -/
theorem consult_of_not_allows {μ : Type} {w : World μ} (ht : w.table? t = some (.grid g))
    (not : ¬g.Allows w.checksOn w.thread) {q : Question} (checked : q ≠ .isDisposed)
    (next : q.Answer → Inquiry α) :
    consult t (.ask q next) w = .done (.error GridTable.intrusion) w := by
  rw [consult_grid ht]
  simp only [Inquiry.run, Table.ask, GridTable.ask_of_not_allows not checked]
  rfl

/-- What the executing thread gets from an editable table that it may not touch. -/
structure Moment.TurnsAway (m : Moment Session.Desk) (t : TableId) (g : GridTable) : Prop where
  /-- A question panics in the check, and the world is as it was, -/
  asked : ∀ q, q ≠ .isDisposed →
    (Session.askTable t (.ask q)).run m.world = .done (.error GridTable.intrusion) m.world
  /-- as is an inquiry, whatever it goes on with. -/
  inquired : ∀ {α : Type} (q : Question) (next : q.Answer → Inquiry α), q ≠ .isDisposed →
    consult t (.ask q next) m.world = .done (.error GridTable.intrusion) m.world
  /-- So does whoever wants to see all of it, -/
  contents :
    (Session.askTable t .contents).run m.world = .done (.error GridTable.intrusion) m.world
  /-- every edit, with any arguments, -/
  edited : ∀ e,
    (Session.askTable t (.edit e)).run m.world = .done (.error GridTable.intrusion) m.world
  /-- and the disposal. -/
  disposed :
    (Session.askTable t .dispose).run m.world = .done (.error GridTable.intrusion) m.world
  /-- Whether it was disposed of is not checked: everyone is told. -/
  told : (Session.askTable t (.ask .isDisposed)).run m.world =
    .done (.ok (.ok (.flag g.disposed))) m.world
  /-- Whatever else the thread does next, the table stays as it is, or it is dropped. -/
  untouched : ∀ {m'}, m.Step m' → m'.world.table? t = none ∨ m'.world.table? t = some (.grid g)

theorem Moment.turnsAway {m : Moment Session.Desk} (ht : m.world.table? t = some (.grid g))
    (owner : g.owner = some c) (checks : m.world.checksOn = true)
    (off : m.world.thread ≠ .toolkit c) : m.TurnsAway t g := by
  have not : ¬g.Allows m.world.checksOn m.world.thread := fun may => off (may checks c owner)
  constructor
  case asked =>
    intro q checked
    exact Session.run_bind_of_panic
      (Session.run_inquire_of_panic (consult_of_not_allows ht not checked _)) _
  case inquired =>
    intro α q next checked
    exact consult_of_not_allows ht not checked next
  case contents =>
    obtain ⟨next, begins⟩ : ∃ next, Reading.contents = .ask .rowCount next := ⟨_, rfl⟩
    have panics := consult_of_not_allows ht not (q := .rowCount) (by simp) next
    rw [← begins] at panics
    exact Session.run_bind_of_panic (Session.run_inquire_of_panic panics) _
  case edited =>
    intro e
    exact Session.run_editTable_of_panic ht (GridTable.edit_of_not_allows not e)
  case disposed => exact Session.run_disposeTable_of_panic ht (GridTable.dispose_of_not_allows not)
  case told =>
    have told : consult t (Inquiry.question .isDisposed) m.world =
        .done (.ok (some g.disposed)) m.world := consult_grid ht _
    have asks : (Session.inquire t (Inquiry.question .isDisposed)).run m.world =
        .done (.ok (.ok g.disposed)) m.world := Session.run_inquire told
    show (Session.inquire t (Inquiry.question .isDisposed) >>= _ : Session.Work _).run m.world = _
    rw [ExceptT.run_bind, Act.bind_apply, asks]
    rfl
  case untouched =>
    intro m' step
    rcases step.bound ht owner with gone | same | ⟨here, -⟩
    · exact .inl gone
    · exact .inr same
    · exact absurd (here checks) off

/-- **A bound table turns strangers away.** Take a moment at which an editable table is bound to a
context, and any later one, whatever was done in between: edits, disposal, binding to other contexts. As
long as the table was not dropped it is bound to the same context, and binding it again changes nothing.
If threads are checked and the executing thread is not the one of that context, then every question but
one, every edit and the disposal end with the panic of the check and leave the world as it is, and nothing
the thread can do changes the table. The one question is whether the table was disposed of: it is
answered. -/
theorem bound_tables_turn_strangers_away {m m' : Moment Session.Desk}
    (ht : m.world.table? t = some (.grid g)) (owner : g.owner = some c) (later : m.Goes m') :
    m'.world.BoundTo t c ∧
      ∀ {g'}, m'.world.table? t = some (.grid g') → (∀ c', g'.bindTo c' = g') ∧
        (m'.world.checksOn = true → m'.world.thread ≠ .toolkit c → m'.TurnsAway t g') := by
  have bound : m.world.BoundTo t c := by
    refine ⟨World.table?_lt ht, fun table there => ?_⟩
    cases ht.symm.trans there
    exact ⟨g, rfl, owner⟩
  have bound' := later.boundTo bound
  refine ⟨bound', fun {g'} ht' => ?_⟩
  obtain ⟨g', same, owner'⟩ := bound'.bound _ ht'
  cases same
  exact ⟨GridTable.bindTo_of_bound owner', Moment.turnsAway ht' owner'⟩

end Strangers

/-- A table was made and bound to the only context; a thread outside it goes on. -/
theorem Moment.lived_of_bound : ∃ m : Moment Session.Desk, m.Lived ∧
    m.world.table? 0 = some (.grid ⟨⟨"t", ["A"], [["x"]]⟩, some 0, false⟩) ∧
    m.world.checksOn = true ∧ m.world.thread = .client 0 := by
  obtain ⟨m, lived, e, -⟩ := Moment.lived_of_grid (g := ⟨"t", ["A"], [["x"]]⟩)
    (by simp [Grid.Rectangular]) Session.Desk.empty (.client 0)
  have ht : m.world.table? 0 = some (.grid (.ofGrid ⟨"t", ["A"], [["x"]]⟩)) := by rw [e]; rfl
  have bound := lived.goes (Step.tables (.bind ht 0)).goes
  exact ⟨_, bound, by simp only [e]; rfl, by simp only [e]; rfl, by simp only [e]; rfl⟩

/-- It was bound to another context afterwards, which changes nothing. -/
theorem bound_tables_turn_strangers_away_twice : ∃ (m m' : Moment Session.Desk) (g : GridTable),
    m.Lived ∧ m.world.table? 0 = some (.grid g) ∧ g.owner = some 0 ∧ m.Goes m' ∧
      m'.world.table? 0 = some (.grid (g.bindTo 1)) ∧ m'.TurnsAway 0 g := by
  obtain ⟨m, lived, ht, checks, thread⟩ := Moment.lived_of_bound
  obtain ⟨m', again, ht', checks', thread'⟩ : ∃ m', m.Goes m' ∧
      m'.world.table? 0 = some (.grid (GridTable.bindTo ⟨⟨"t", ["A"], [["x"]]⟩, some 0, false⟩ 1)) ∧
      m'.world.checksOn = true ∧ m'.world.thread = .client 0 := by
    refine ⟨_, (Moment.Step.tables (.bind ht 1)).goes, ?_, checks, thread⟩
    have there := World.table?_lt ht
    simp [World.table?, there]
  refine ⟨m, m', _, lived, ht, rfl, again, ht', ?_⟩
  have later := (bound_tables_turn_strangers_away ht rfl again).2 ht'
  exact later.2 checks' (by simp [thread'])

/-- Whether a bound table was disposed of is told to a thread that may not touch it, and nobody
panics. -/
theorem strangers_are_told_of_disposal : ∃ (m : Moment Session.Desk) (g : GridTable), m.Lived ∧
    m.world.table? 0 = some (.grid g) ∧ g.owner = some 0 ∧ m.world.checksOn = true ∧
      m.world.thread ≠ .toolkit 0 ∧
      (Session.askTable 0 (.ask .isDisposed)).run m.world = .done (.ok (.ok (.flag false))) m.world := by
  obtain ⟨m, lived, ht, checks, thread⟩ := Moment.lived_of_bound
  have off : m.world.thread ≠ .toolkit 0 := by simp [thread]
  exact ⟨m, _, lived, ht, rfl, checks, off, (Moment.turnsAway ht rfl checks off).told⟩

end TableAccess
