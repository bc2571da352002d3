import TableAccess.Proofs.Shown

/-!
# Editable tables

An editable table keeps its headers in one list and the cells of each row in another. Every edit
changes all of them in step, so that each row has a cell for each header at any time, whatever was
done to the table and with whatever arguments. Therefore no edit ever points outside a list.

## The model

* `GridTable.Reached` — what a new table can become.
* `GridTable.Allows` — a thread may touch a table; `GridTable.intrusion` — the panic on any other.
* `Edit.Fits` — an edit asks for no more columns than there is room for.
* `GridTable.Reached.rectangular` — every row has a cell for each header.
* `Edit.succeeds` — no edit of a rectangular grid panics.
* `storage_is_rectangular_and_edits_succeed` — the main statement.
-/

namespace TableAccess

variable {t t' : GridTable} {g : Grid} {checksOn : Bool} {now : Thread} {name : String}
  {headers : List String}

/-- What a table that was made with a name and headers can become. Whatever panics changes nothing. -/
inductive GridTable.Reached (name : String) (headers : List String) : GridTable → Prop where
  /-- It is new. -/
  | new : Reached name headers (.ofGrid (.ofHeaders name headers))
  /-- It is bound to a context. -/
  | bind {t : GridTable} (before : Reached name headers t) (c : ContextId) :
    Reached name headers (t.bindTo c)
  /-- It is edited, on any thread. -/
  | edit {t t' : GridTable} {checksOn : Bool} {now : Thread} {e : Edit} {reply : EditReply}
      (before : Reached name headers t) (done : t.edit checksOn now e = .ok (reply, t')) :
    Reached name headers t'
  /-- It is disposed of, on any thread. -/
  | dispose {t t' : GridTable} {checksOn : Bool} {now : Thread}
      (before : Reached name headers t) (done : t.dispose checksOn now = .ok t') :
    Reached name headers t'

/-- A thread may touch a table: the table is bound to nothing or to the context of the thread, or
nothing is checked. -/
def GridTable.Allows (t : GridTable) (checksOn : Bool) (now : Thread) : Prop :=
  checksOn = true → ∀ c, t.owner = some c → now = .toolkit c

/-- There is room for as many columns as an edit asks for. -/
def Edit.Fits (e : Edit) (g : Grid) : Prop :=
  ∀ count, e = .setColumnCount count → count ≤ g.headers.length ∨ Room.Fits .text count

/-! ### Rows keep in step with the headers -/

/-- Every row has a cell for each header, whatever was done. -/
theorem GridTable.Reached.rectangular (h : Reached name headers t) : t.grid.Rectangular := by
  induction h with
  | new => exact fun row hrow => by cases hrow
  | bind _ _ ih => exact ih
  | edit _ done ih =>
    obtain ⟨-, g', applied, rfl⟩ := GridTable.edit_eq_ok done
    exact Edit.rectangular applied ih
  | dispose _ done ih =>
    obtain ⟨-, rfl⟩ := GridTable.dispose_eq_ok done
    exact ih

/-- No edit of a rectangular grid points outside a list. -/
theorem Edit.succeeds (rectangular : g.Rectangular) {e : Edit} (fits : e.Fits g) :
    ∃ reply g', e.apply g = .ok (reply, g') := by
  cases e with
  | setName | setHeader | appendRow | setCell | clearRows => exact ⟨_, _, rfl⟩
  | insertColumn index header => exact ⟨_, _, insertColumn_apply rectangular index header⟩
  | removeColumn index =>
    rcases Nat.lt_or_ge index g.headers.length with lt | le
    · exact ⟨_, _, removeColumn_apply rectangular lt⟩
    · exact ⟨_, _, removeColumn_apply_of_le le⟩
  | setColumnCount count =>
    have room : ¬(g.headers.length < count ∧ ¬Room.Fits .text count) := by
      rintro ⟨more, long⟩
      rcases fits count rfl with le | fits
      · exact absurd more (Nat.not_lt.2 le)
      · exact long fits
    exact ⟨_, _, if_neg room⟩
  | removeRow index =>
    simp only [apply]
    split
    · rename_i lt
      rw [Grid.removeAt_of_lt lt]
      exact ⟨_, _, rfl⟩
    · exact ⟨_, _, rfl⟩

/-! ### On a thread that may touch the table -/

section Allowed

variable (may : t.Allows checksOn now)

include may

theorem GridTable.Allows.opens : t.checkThread checksOn now = .ok () := by
  unfold checkThread
  cases owner : t.owner with
  | none => rfl
  | some c => exact Affinity.check_eq_ok_iff.2 fun on => may on c owner

/-- Every question is answered, from the contents. -/
theorem GridTable.Allows.ask (q : Question) : t.ask checksOn now q = .ok (t.answer q) := by
  cases q <;> simp [GridTable.ask, may.opens, Except.map]

theorem GridTable.Allows.edit (rectangular : t.grid.Rectangular) {e : Edit} (fits : e.Fits t.grid) :
    ∃ reply t', t.edit checksOn now e = .ok (reply, t') := by
  obtain ⟨reply, g', applied⟩ := Edit.succeeds rectangular fits
  refine ⟨reply, { t with grid := g' }, ?_⟩
  simp only [GridTable.edit, may.opens, applied]
  rfl

theorem GridTable.Allows.dispose : ∃ t', t.dispose checksOn now = .ok t' := by
  refine ⟨{ t with disposed := true }, ?_⟩
  simp only [GridTable.dispose, may.opens]
  rfl

end Allowed

/-! ### On any other thread -/

namespace GridTable

/-- The panic of whoever touches a table on a thread that may not. -/
def intrusion : Panic := Affinity.violation "toolkit table accessed outside the toolkit context"

section Barred

variable (not : ¬t.Allows checksOn now)

include not

theorem checkThread_of_not_allows : t.checkThread checksOn now = .error intrusion := by
  unfold Allows at not
  push Not at not
  obtain ⟨rfl, c, owner, off⟩ := not
  have apart : (now == .toolkit c) = false := by simpa using off
  simp [checkThread, owner, Affinity.check, Affinity.assertSame, Affinity.isSame, apart, intrusion]

/-- Only whether it was disposed of can be asked on any thread. -/
theorem ask_of_not_allows {q : Question} (checked : q ≠ .isDisposed) :
    t.ask checksOn now q = .error intrusion := by
  cases q with
  | isDisposed => exact absurd rfl checked
  | _ => simp [ask, checkThread_of_not_allows not, Except.map]

theorem edit_of_not_allows (e : Edit) : t.edit checksOn now e = .error intrusion := by
  rw [edit, checkThread_of_not_allows not]
  rfl

theorem dispose_of_not_allows : t.dispose checksOn now = .error intrusion := by
  rw [dispose, checkThread_of_not_allows not]
  rfl

end Barred

end GridTable

/-- What a thread finds that may touch a table. -/
structure GridTable.Works (t : GridTable) (checksOn : Bool) (now : Thread) : Prop where
  /-- Exactly the cells below the counts have a text, and only columns below the count a header. -/
  counts : ∃ rows columns, t.ask checksOn now .rowCount = .ok rows ∧
    t.ask checksOn now .columnCount = .ok columns ∧
    (∀ row column, ∃ text, t.ask checksOn now (.cellText row column) = .ok text ∧
      (text.isSome ↔ row < rows ∧ column < columns)) ∧
    ∀ column, ∃ header, t.ask checksOn now (.header column) = .ok header ∧
      (header.isSome → column < columns)
  /-- No question panics, -/
  questions : ∀ q : Question, ∃ answer, t.ask checksOn now q = .ok answer
  /-- no edit does for which there is room, -/
  edits : ∀ e : Edit, e.Fits t.grid → ∃ reply t', t.edit checksOn now e = .ok (reply, t')
  /-- and neither does the disposal. -/
  disposal : ∃ t', t.dispose checksOn now = .ok t'

/-- Only a column that is there has a header. -/
theorem Grid.lt_of_header? {g : Grid} {column : Nat} (h : (g.header? column).isSome) :
    column < g.headers.length := by
  obtain ⟨header, found⟩ := Option.isSome_iff_exists.1 h
  obtain ⟨text, there, -⟩ := Option.bind_eq_some_iff.1 found
  exact (List.getElem?_eq_some_iff.1 there).1

theorem GridTable.Allows.works (may : t.Allows checksOn now) (rectangular : t.grid.Rectangular) :
    t.Works checksOn now where
  counts := by
    refine ⟨_, _, may.ask .rowCount, may.ask .columnCount, fun row column => ?_, fun column => ?_⟩
    · exact ⟨_, may.ask (.cellText row column), rectangular.cell?_isSome row column⟩
    · exact ⟨_, may.ask (.header column), Grid.lt_of_header?⟩
  questions q := ⟨_, may.ask q⟩
  edits _ fits := may.edit rectangular fits
  disposal := may.dispose

/-- **Whatever was done to an editable table**, with whatever arguments, every row has as many cells as
there are headers; and on a thread that may touch the table its cells are those below its counts, and
nothing that can be asked or done panics. -/
theorem storage_is_rectangular_and_edits_succeed (h : GridTable.Reached name headers t) :
    t.grid.Rectangular ∧
      ∀ {checksOn : Bool} {now : Thread}, t.Allows checksOn now → t.Works checksOn now :=
  ⟨h.rectangular, fun may => may.works h.rectangular⟩

/-- So it is after a row too long was appended, a column was put far to the right and the first one was
taken away, on the thread of the context to which the table is bound. -/
theorem storage_is_rectangular_and_edits_succeed_bound : ∃ t : GridTable,
    GridTable.Reached "t" ["A", "B"] t ∧ t.owner = some 0 ∧ t.grid.headers = ["B", "C"] ∧
      t.grid.rows = [["y", ""]] ∧ t.grid.Rectangular ∧ t.Works true (.toolkit 0) := by
  have bound : GridTable.Reached "t" ["A", "B"] ⟨.ofHeaders "t" ["A", "B"], some 0, false⟩ := .bind .new 0
  have appends : GridTable.edit ⟨.ofHeaders "t" ["A", "B"], some 0, false⟩ true (.toolkit 0)
      (.appendRow ["x", "y", "z"]) =
    .ok (.nothing, ⟨⟨"t", ["A", "B"], [["x", "y"]]⟩, some 0, false⟩) := rfl
  have inserts : GridTable.edit ⟨⟨"t", ["A", "B"], [["x", "y"]]⟩, some 0, false⟩ true (.toolkit 0)
      (.insertColumn 100 "C") =
    .ok (.nothing, ⟨⟨"t", ["A", "B", "C"], [["x", "y", ""]]⟩, some 0, false⟩) := rfl
  have removes : GridTable.edit ⟨⟨"t", ["A", "B", "C"], [["x", "y", ""]]⟩, some 0, false⟩ true
      (.toolkit 0) (.removeColumn 0) =
    .ok (.header (some "A"), ⟨⟨"t", ["B", "C"], [["y", ""]]⟩, some 0, false⟩) := rfl
  have removed := ((bound.edit appends).edit inserts).edit removes
  obtain ⟨rectangular, works⟩ := storage_is_rectangular_and_edits_succeed removed
  exact ⟨_, removed, rfl, rfl, rfl, rectangular, works fun _ c owner => by cases owner; rfl⟩

end TableAccess
