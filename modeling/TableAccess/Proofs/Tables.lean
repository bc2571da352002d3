import TableAccess.Proofs.Moment

/-!
# What tables keep

A table that was dropped never comes back, and one that was disposed of stays so. The contents of an
editable table are what its edits have made of the contents it was made with, in the order in which
they were done; every row keeps a cell for each header.

## The model

* `Moment.GridChange` — what one deed does to an editable table; `Step.grid` — that it does no more.
* `Grid.after` — contents after edits.
* `Moment.Filed` — what is known of the tables at a moment; `Lived.filed` — that it always is.
-/

namespace TableAccess

variable {μ : Type} {m m' : Moment μ} {t : TableId} {g g' : GridTable}

/-! ### Edits -/

namespace Grid

theorem insertAt_of_le {α : Type} {i : Nat} {x : α} {l : List α} (h : i ≤ l.length) :
    insertAt i x l = .ok (l.insertIdx i x) := by
  simp [insertAt, h]

theorem removeAt_of_lt {α : Type} {i : Nat} {l : List α} (h : i < l.length) :
    removeAt i l = .ok (l.eraseIdx i) := by
  simp [removeAt, h]

@[simp] theorem length_resize (n : Nat) (l : List String) : (resize n l).length = n := by
  simp [resize]
  omega

/-- A change that every row allows is made in every row. -/
theorem mapRows_eq {f : List String → Except Panic (List String)} {f' : List String → List String}
    {g : Grid} (h : ∀ row ∈ g.rows, f row = .ok (f' row)) :
    g.mapRows f = .ok (g.rows.map f') := by
  unfold mapRows
  generalize g.rows = rows at h
  induction rows with
  | nil => rfl
  | cons row rest ih =>
    rw [List.mapM_cons, h row List.mem_cons_self, ih fun r hr => h r (List.mem_cons_of_mem row hr)]
    rfl

/-- A grid whose rows come from those of a rectangular one is rectangular if each of them comes to
have the right length. -/
theorem Rectangular.of_map {g g' : Grid} {f : List String → List String} (h : g.Rectangular)
    (rows : g'.rows = g.rows.map f)
    (fits : ∀ row, row.length = g.headers.length → (f row).length = g'.headers.length) :
    g'.Rectangular := by
  intro row' hrow'
  rw [rows] at hrow'
  obtain ⟨row, hrow, rfl⟩ := List.mem_map.1 hrow'
  exact fits row (h row hrow)

end Grid

/-- A column finds its place in every row of a rectangular grid. -/
theorem Edit.insertColumn_apply {g : Grid} (rectangular : g.Rectangular) (index : Nat)
    (header : String) :
    (Edit.insertColumn index header).apply g = .ok (.nothing, { g with
      headers := g.headers.insertIdx (min index g.headers.length) header
      rows := g.rows.map fun row => row.insertIdx (min index g.headers.length) "" }) := by
  have within : min index g.headers.length ≤ g.headers.length := Nat.min_le_right _ _
  have rows : g.mapRows (Grid.insertAt (min index g.headers.length) "") =
      .ok (g.rows.map fun row => row.insertIdx (min index g.headers.length) "") := by
    refine Grid.mapRows_eq fun row hrow => Grid.insertAt_of_le ?_
    rw [rectangular row hrow]
    exact within
  simp only [apply, Grid.insertAt_of_le within, rows]
  rfl

/-- A column that is there is found in every row of a rectangular grid. -/
theorem Edit.removeColumn_apply {g : Grid} (rectangular : g.Rectangular) {index : Nat}
    (lt : index < g.headers.length) :
    (Edit.removeColumn index).apply g = .ok (.header (some g.headers[index]), { g with
      headers := g.headers.eraseIdx index
      rows := g.rows.map (·.eraseIdx index) }) := by
  have rows : g.mapRows (Grid.removeAt index) = .ok (g.rows.map (·.eraseIdx index)) := by
    refine Grid.mapRows_eq fun row hrow => Grid.removeAt_of_lt ?_
    rw [rectangular row hrow]
    exact lt
  simp only [apply, List.getElem?_eq_getElem lt, rows, Grid.removeAt_of_lt lt]
  rfl

/-- No column is taken away that is not there. -/
theorem Edit.removeColumn_apply_of_le {g : Grid} {index : Nat} (le : g.headers.length ≤ index) :
    (Edit.removeColumn index).apply g = .ok (.header none, g) := by
  simp only [apply, List.getElem?_eq_none le]

/-- An edit of a rectangular grid leaves a rectangular grid. -/
theorem Edit.rectangular {e : Edit} {g g' : Grid} {reply : EditReply}
    (h : e.apply g = .ok (reply, g')) (rectangular : g.Rectangular) : g'.Rectangular := by
  cases e with
  | setName text =>
    cases h
    exact rectangular
  | insertColumn index header =>
    rw [insertColumn_apply rectangular] at h
    cases h
    refine rectangular.of_map rfl ?_
    intro row whole
    simp [List.length_insertIdx, whole]
  | removeColumn index =>
    rcases Nat.lt_or_ge index g.headers.length with lt | le
    · rw [removeColumn_apply rectangular lt] at h
      cases h
      refine rectangular.of_map rfl ?_
      intro row whole
      simp [List.length_eraseIdx, whole]
    · rw [removeColumn_apply_of_le le] at h
      cases h
      exact rectangular
  | setColumnCount count =>
    simp only [apply] at h
    split at h
    · cases h
    · cases h
      refine rectangular.of_map rfl ?_
      intro row whole
      simp
  | setHeader column header =>
    cases h
    intro row hrow
    simpa using rectangular row hrow
  | appendRow cells =>
    cases h
    intro row hrow
    rcases List.mem_append.1 hrow with old | new
    · exact rectangular row old
    · rw [List.mem_singleton.1 new]
      simp
  | removeRow index =>
    simp only [apply] at h
    split at h
    · rename_i lt
      simp only [Grid.removeAt_of_lt lt] at h
      cases h
      exact fun row hrow => rectangular row (List.mem_of_mem_eraseIdx hrow)
    · cases h
      exact rectangular
  | setCell row column text =>
    cases h
    intro cells hcells
    obtain ⟨i, hi⟩ := List.mem_iff_getElem?.1 hcells
    rw [List.getElem?_modify] at hi
    obtain ⟨old, hold, rfl⟩ := Option.map_eq_some_iff.1 hi
    have := rectangular old (List.mem_of_getElem? hold)
    split <;> simpa using this
  | clearRows =>
    cases h
    exact fun row hrow => by cases hrow

/-- Contents after edits, the first of them in front. -/
def Grid.after (g : Grid) (edits : List Edit) : Grid :=
  edits.foldl (fun g e =>
    match e.apply g with
    | .ok (_, g') => g'
    | .error _ => g) g

theorem Grid.after_append (g : Grid) (earlier later : List Edit) :
    g.after (earlier ++ later) = (g.after earlier).after later :=
  List.foldl_append

theorem Grid.after_singleton {g g' : Grid} {e : Edit} {reply : EditReply}
    (h : e.apply g = .ok (reply, g')) : g.after [e] = g' := by
  simp [after, h]

/-! ### What one deed does to a table -/

namespace World

variable {w : World μ} {table : Table}

theorem table?_eq_some_iff : w.table? t = some table ↔ w.tables[t]? = some (some table) :=
  Option.join_eq_some_iff

theorem table?_lt (h : w.table? t = some table) : t < w.tables.length :=
  (List.getElem?_eq_some_iff.1 (table?_eq_some_iff.1 h)).1

theorem setTable_self (h : w.table? t = some table) : w.setTable t (some table) = w := by
  obtain ⟨lt, e⟩ := List.getElem?_eq_some_iff.1 (table?_eq_some_iff.1 h)
  simp [setTable, ← e]

end World

/-- A table after a table was put in the place of one, or of none. -/
theorem getElem?_set_some {tables : List (Option Table)} {t' : TableId} {new : Option Table}
    {table : Table} (h : (tables.set t' new)[t]? = some (some table)) :
    t' = t ∧ new = some table ∨ t' ≠ t ∧ tables[t]? = some (some table) := by
  rw [List.getElem?_set] at h
  split at h
  · split at h
    · exact .inl ⟨‹_›, Option.some.inj h⟩
    · cases h
  · exact .inr ⟨‹_›, h⟩

namespace GridTable

theorem edit_eq_ok {checksOn : Bool} {now : Thread} {e : Edit} {reply : EditReply}
    (h : g.edit checksOn now e = .ok (reply, g')) :
    g.checkThread checksOn now = .ok () ∧ ∃ grid, e.apply g.grid = .ok (reply, grid) ∧
      g' = { g with grid := grid } := by
  unfold edit at h
  cases check : g.checkThread checksOn now with
  | error p =>
    rw [check] at h
    cases h
  | ok =>
    rw [check] at h
    cases applied : e.apply g.grid with
    | error p =>
      rw [applied] at h
      cases h
    | ok r =>
      rw [applied] at h
      cases h
      exact ⟨rfl, r.2, rfl, rfl⟩

theorem dispose_eq_ok {checksOn : Bool} {now : Thread} (h : g.dispose checksOn now = .ok g') :
    g.checkThread checksOn now = .ok () ∧ g' = { g with disposed := true } := by
  unfold dispose at h
  cases check : g.checkThread checksOn now with
  | error p =>
    rw [check] at h
    cases h
  | ok =>
    rw [check] at h
    cases h
    exact ⟨rfl, rfl⟩

end GridTable

/-- The table that a deed is about. -/
def Deed.table? : Deed → Option TableId
  | .created t _ => some t
  | .edited t _ _ => some t
  | .foundDisposed t => some t
  | _ => none

namespace Moment

/-- What became of an editable table with one deed. -/
inductive GridChange (m m' : Moment μ) (t : TableId) (g' : GridTable) : Prop where
  /-- It was made. -/
  | created {contents : Grid} (new : m.world.tables.length = t) (rectangular : contents.Rectangular)
      (e : g' = .ofGrid contents) (past : m'.past = m.past ++ [.created t contents])
  /-- It was edited. -/
  | edited {g : GridTable} {e : Edit} {reply : EditReply} (ht : m.world.table? t = some (.grid g))
      (h : g.edit m.world.checksOn m.world.thread e = .ok (reply, g'))
      (past : m'.past = m.past ++ [.edited t m.world.task? e])
  /-- Its contents stayed as they were. -/
  | kept {g : GridTable} (ht : m.world.table? t = some (.grid g)) (grid : g'.grid = g.grid)
      (disposed : g.disposed = true → g'.disposed = true)
      (edits : m'.edits t = m.edits t)
      (found : .foundDisposed t ∈ m'.past → .foundDisposed t ∈ m.past ∨ g'.disposed = true)

theorem edits_of_past {deeds : List Deed} (past : m'.past = m.past ++ deeds) (t : TableId) :
    m'.edits t = m.edits t ++ deeds.filterMap (Deed.edit? t) := by
  rw [edits, past, List.filterMap_append]
  rfl

/-- Deeds that are not about a table keep its contents. -/
theorem GridChange.of_apart {deeds : List Deed} (ht : m.world.table? t = some (.grid g))
    (grid : g'.grid = g.grid) (disposed : g.disposed = true → g'.disposed = true)
    (past : m'.past = m.past ++ deeds) (apart : ∀ d ∈ deeds, d.table? ≠ some t) :
    GridChange m m' t g' := by
  refine .kept ht grid disposed ?_ fun found => .inl ?_
  · have none : deeds.filterMap (Deed.edit? t) = [] := by
      rw [List.filterMap_eq_nil_iff]
      intro d hd
      have := apart d hd
      cases d <;> simp_all [Deed.edit?, Deed.table?]
    rw [edits_of_past past, none, List.append_nil]
  · rw [past, List.mem_append] at found
    exact found.resolve_right fun new => apart _ new rfl

theorem contextStep_table? {w : World μ} {deeds : List Deed} {contexts : List (Context Ticket)}
    {tickets : Nat} (h : ContextStep w deeds contexts tickets) {d : Deed} (hd : d ∈ deeds) :
    d.table? = none := by
  obtain ⟨task, rfl | rfl | rfl⟩ := contextStep_deed h hd <;> rfl

theorem treeStep_table? {deeds : List Deed} {trees : List Tree} {peers : List Peer}
    {bridges : List Bridge} (h : TreeStep m deeds trees peers bridges) {d : Deed} (hd : d ∈ deeds) :
    d.table? = none := by
  obtain ⟨a, rfl⟩ | ⟨t, nodes, rfl⟩ := treeStep_deed h hd <;> rfl

/-- A deed on tables changes an editable table in one of these ways. -/
theorem gridChange_of_tableStep {deeds : List Deed} {tables : List (Option Table)}
    (h : TableStep m.world deeds tables) (past : m'.past = m.past ++ deeds)
    (ht : tables[t]? = some (some (.grid g'))) : GridChange m m' t g' := by
  -- a table other than the one the deed is about stays as it is
  have other : m.world.tables[t]? = some (some (.grid g')) → (∀ d ∈ deeds, d.table? ≠ some t) →
      GridChange m m' t g' := fun same apart =>
    .of_apart (World.table?_eq_some_iff.2 same) rfl id past apart
  cases h with
  | @create contents rectangular =>
    rw [List.getElem?_append] at ht
    split at ht
    · rename_i lt
      exact other ht (by simpa [Deed.table?] using Nat.ne_of_gt lt)
    · rename_i beyond
      obtain ⟨at_end, e⟩ := List.getElem?_eq_some_iff.1 ht
      have here : m.world.tables.length = t := by
        simp only [List.length_singleton] at at_end
        omega
      subst here
      simp only [List.getElem_singleton, Option.some.injEq, Table.grid.injEq] at e
      exact .created rfl rectangular e.symm past
  | createOther r =>
    rw [List.getElem?_append] at ht
    split at ht
    · exact other ht (by simp)
    · have := List.mem_of_getElem? ht
      simp at this
  | @bind t' g ht' c =>
    rcases getElem?_set_some ht with ⟨rfl, e⟩ | ⟨-, same⟩
    · cases e
      exact .of_apart ht' rfl id past (by simp)
    · exact other same (by simp)
  | @edit t' g g'' e reply ht' h =>
    rcases getElem?_set_some ht with ⟨rfl, same⟩ | ⟨apart, same⟩
    · cases same
      exact .edited ht' h past
    · exact other same (by simpa [Deed.table?] using apart)
  | @dispose t' g g'' ht' h =>
    rcases getElem?_set_some ht with ⟨rfl, e⟩ | ⟨-, same⟩
    · cases e
      obtain ⟨-, rfl⟩ := GridTable.dispose_eq_ok h
      exact .of_apart ht' rfl (fun _ => rfl) past (by simp)
    · exact other same (by simp)
  | @ask t' table ht' q =>
    rcases getElem?_set_some ht with ⟨rfl, e⟩ | ⟨-, same⟩
    · cases table with
      | grid g =>
        cases e
        exact .of_apart ht' rfl id past (by simp)
      | responder r => cases e
    · exact other same (by simp)
  | @askDisposed t' table ht' h =>
    rcases getElem?_set_some ht with ⟨rfl, e⟩ | ⟨apart, same⟩
    · cases table with
      | grid g =>
        cases e
        refine .kept ht' rfl id (by simp [edits_of_past past, Deed.edit?]) fun _ => .inr ?_
        exact Except.ok.inj h
      | responder r => cases e
    · exact other same (by simpa [Deed.table?] using apart)
  | drop t' =>
    rcases getElem?_set_some ht with ⟨rfl, e⟩ | ⟨-, same⟩
    · cases e
    · exact other same (by simp)

/-- One deed does no more to an editable table than this. -/
theorem Step.grid (h : m.Step m') (ht : m'.world.table? t = some (.grid g')) :
    GridChange m m' t g' := by
  cases h with
  | aside => exact .of_apart ht rfl id (List.append_nil _).symm (by simp)
  | contexts h =>
    exact .of_apart ht rfl id rfl fun d hd => by simp [contextStep_table? h hd]
  | tables h => exact gridChange_of_tableStep h rfl (World.table?_eq_some_iff.1 ht)
  | trees h =>
    exact .of_apart ht rfl id rfl fun d hd => by simp [treeStep_table? h hd]

/-! ### The contents of tables -/

theorem Step.tables_length (h : m.Step m') : m.world.tables.length ≤ m'.world.tables.length := by
  cases h with
  | tables h => cases h <;> simp
  | _ => exact Nat.le_refl _

theorem Goes.tables_length (h : m.Goes m') : m.world.tables.length ≤ m'.world.tables.length :=
  h.keeps (P := fun m' => m.world.tables.length ≤ m'.world.tables.length) (Nat.le_refl _)
    fun step before => Nat.le_trans before step.tables_length

/-- What is remembered of a table was done to it after it was made. -/
theorem Step.table_of_mem (h : m.Step m') {d : Deed} (hd : d ∈ m'.past) (ht : d.table? = some t) :
    d ∈ m.past ∨ m'.past = m.past ++ [d] ∧ t < m'.world.tables.length ∧
      ∀ g, d = .created t g → m.world.tables.length = t := by
  cases h with
  | aside => exact .inl hd
  | contexts h =>
    refine .inl ((List.mem_append.1 hd).resolve_right ?_)
    intro new
    rw [contextStep_table? h new] at ht
    cases ht
  | trees h =>
    refine .inl ((List.mem_append.1 hd).resolve_right ?_)
    intro new
    rw [treeStep_table? h new] at ht
    cases ht
  | tables h =>
    refine (List.mem_append.1 hd).imp_right ?_
    intro new
    cases h with
    | create =>
      cases List.mem_singleton.1 new
      cases ht
      simp
    | edit ht' | askDisposed ht' =>
      cases List.mem_singleton.1 new
      cases ht
      simpa using World.table?_lt ht'
    | _ => cases new

/-- What is remembered of tables fits the tables. -/
structure Filed (m : Moment μ) : Prop where
  /-- Only of tables that were made something is remembered. -/
  known : ∀ {d : Deed} {t : TableId}, d ∈ m.past → d.table? = some t → t < m.world.tables.length
  /-- A table was made once. -/
  once : ∀ {t : TableId} {g g' : Grid}, .created t g ∈ m.past → .created t g' ∈ m.past → g = g'
  /-- Every row has a cell for each header. -/
  rectangular : ∀ {t : TableId} {g : GridTable}, m.world.table? t = some (.grid g) →
    g.grid.Rectangular
  /-- A table that said so is disposed of. -/
  disposed : ∀ {t : TableId} {g : GridTable}, m.world.table? t = some (.grid g) →
    .foundDisposed t ∈ m.past → g.disposed = true
  /-- The contents are what the edits have made of the first ones. -/
  contents : ∀ {t : TableId} {g : GridTable}, m.world.table? t = some (.grid g) →
    ∃ g₀, .created t g₀ ∈ m.past ∧ g.grid = g₀.after ((m.edits t).map Prod.snd)

theorem filed_first (memory : μ) : (first memory).Filed := by
  refine ⟨?_, ?_, ?_, ?_, ?_⟩ <;> simp [first, World.empty, World.table?]

/-- Of a table that is not made yet nothing is remembered. -/
theorem Filed.edits_of_new (h : m.Filed) (new : m.world.tables.length = t) : m.edits t = [] := by
  rw [edits, List.filterMap_eq_nil_iff]
  intro d hd
  cases d with
  | edited t' author e =>
    have lt : t' < m.world.tables.length := h.known hd rfl
    simp only [Deed.edit?]
    rw [if_neg (Nat.ne_of_lt (new ▸ lt))]
  | _ => rfl

theorem Filed.step (h : m.Filed) (step : m.Step m') : m'.Filed where
  known hd ht := by
    rcases step.table_of_mem hd ht with old | ⟨-, lt, -⟩
    · exact Nat.lt_of_lt_of_le (h.known old ht) step.tables_length
    · exact lt
  once {t g g'} hg hg' := by
    have apart : ∀ {g}, .created t g ∈ m.past → m.world.tables.length ≠ t := fun old new =>
      absurd (h.known old rfl) (new ▸ Nat.lt_irrefl _)
    rcases step.table_of_mem hg rfl with old | ⟨past, -, new⟩ <;>
      rcases step.table_of_mem hg' rfl with old' | ⟨past', -, new'⟩
    · exact h.once old old'
    · exact absurd (new' _ rfl) (apart old)
    · exact absurd (new _ rfl) (apart old')
    · rw [past] at past'
      simpa using past'
  rectangular ht := by
    cases step.grid ht with
    | created new rectangular e past =>
      rw [e]
      exact rectangular
    | edited ht' edit past =>
      obtain ⟨-, grid, applied, rfl⟩ := GridTable.edit_eq_ok edit
      exact Edit.rectangular applied (h.rectangular ht')
    | kept ht' grid =>
      rw [grid]
      exact h.rectangular ht'
  disposed {t _} ht found := by
    cases step.grid ht with
    | created new rectangular e past =>
      rw [past] at found
      have old : .foundDisposed t ∈ m.past := by simpa using found
      exact absurd (h.known old rfl) (new ▸ Nat.lt_irrefl _)
    | @edited g _ _ ht' edit past =>
      obtain ⟨-, grid, applied, rfl⟩ := GridTable.edit_eq_ok edit
      rw [past] at found
      have old : .foundDisposed t ∈ m.past := by simpa using found
      show g.disposed = true
      exact h.disposed ht' old
    | kept ht' grid disposed edits found' =>
      exact (found' found).elim (fun old => disposed (h.disposed ht' old)) id
  contents {t g'} ht := by
    cases step.grid ht with
    | @created contents new rectangular e past =>
      refine ⟨contents, by simp [past], ?_⟩
      rw [edits_of_past past, h.edits_of_new new, e]
      rfl
    | edited ht' edit past =>
      obtain ⟨-, grid, applied, rfl⟩ := GridTable.edit_eq_ok edit
      obtain ⟨g₀, made, same⟩ := h.contents ht'
      refine ⟨g₀, step.past.subset made, ?_⟩
      rw [edits_of_past past, List.map_append, Grid.after_append, ← same]
      simpa [Deed.edit?] using (Grid.after_singleton applied).symm
    | kept ht' grid disposed edits =>
      obtain ⟨g₀, made, same⟩ := h.contents ht'
      exact ⟨g₀, step.past.subset made, by rw [edits, grid, same]⟩

/-- What is remembered of tables fits the tables, at every moment. -/
theorem Lived.filed (h : m.Lived) : m.Filed :=
  h.keeps filed_first fun step ih => ih.step step

end Moment

end TableAccess
