import TableAccess.Proofs.Conduct
import TableAccess.Proofs.LawfulNodes

/-!
# Scopes

Whatever a request is about, it goes through the same few deeds: it asks tables, latches peers, and
looks for nodes and adds some. A scope says which peers, nodes, trees and bridges come up, what
their tables may answer, and what is taken for granted of a peer before it is latched. If every such
deed keeps to a conduct, so does every request that stays in the scope.

## The model

* `Table.Always` — what a table answers, whatever it was asked before.
* `Scope` — what may come up; `Scope.any` — everything may.
* `Scope.Reads`, `Scope.Judges` — reading tables keeps to a conduct.
* `Reads.query`, `Reads.isValid` — what peers are asked.
-/

namespace TableAccess

variable {μ α β : Type}

/-! ### Inquiries whose answers are known to some extent -/

namespace Inquiry

variable {A : (q : Question) → q.Answer → Prop} {V : α → Prop}

/-- Every value that an inquiry can end with satisfies `V` if all answers satisfy `A`. -/
def AllOf (A : (q : Question) → q.Answer → Prop) (V : α → Prop) : Inquiry α → Prop
  | .done a => V a
  | .fail _ => True
  | .ask q next => ∀ answer : q.Answer, A q answer → (next answer).AllOf A V

theorem AllOf.pure {a : α} (h : V a) : (pure a : Inquiry α).AllOf A V := h

theorem AllOf.question {q : Question} : (question q).AllOf A (A q) := fun _ h => h

theorem AllOf.bind {W : β → Prop} {i : Inquiry α} {f : α → Inquiry β} (h : i.AllOf A V)
    (rest : ∀ a, V a → (f a).AllOf A W) : (i >>= f).AllOf A W := by
  show (i.bind f).AllOf A W
  induction i with
  | done a => exact rest a h
  | fail p => trivial
  | ask q next ih => exact fun answer known => ih answer (h answer known)

/-- Every value that an inquiry can end with satisfies `V`, and every panic that it can end with of
its own satisfies `T`, if all answers satisfy `A`. -/
def EndsIn (A : (q : Question) → q.Answer → Prop) (T : Panic → Prop) (V : α → Prop) :
    Inquiry α → Prop
  | .done a => V a
  | .fail p => T p
  | .ask q next => ∀ answer : q.Answer, A q answer → (next answer).EndsIn A T V

section EndsIn

variable {T : Panic → Prop}

theorem EndsIn.pure {a : α} (h : V a) : (pure a : Inquiry α).EndsIn A T V := h

theorem EndsIn.question {q : Question} : (question q).EndsIn A T fun _ => True :=
  fun _ _ => trivial

theorem EndsIn.bind {W : β → Prop} {i : Inquiry α} {f : α → Inquiry β} (h : i.EndsIn A T V)
    (rest : ∀ a, V a → (f a).EndsIn A T W) : (i >>= f).EndsIn A T W := by
  show (i.bind f).EndsIn A T W
  induction i with
  | done a => exact rest a h
  | fail p => exact h
  | ask q next ih => exact fun answer known => ih answer (h answer known)

theorem EndsIn.and {W : α → Prop} {i : Inquiry α} (h : i.AllOf A V) (h' : i.EndsIn A T W) :
    i.EndsIn A T fun a => V a ∧ W a := by
  induction i with
  | done a => exact ⟨h, h'⟩
  | fail p => exact h'
  | ask q next ih => exact fun answer known => ih answer (h answer known) (h' answer known)

end EndsIn

theorem All.allOf {i : Inquiry α} (h : i.All V) : i.AllOf A V := by
  induction i with
  | done a => exact h
  | fail p => trivial
  | ask q next ih => exact fun answer _ => ih answer (h answer)

end Inquiry

namespace Reading

variable {A : (q : Question) → q.Answer → Prop} {V : α → Prop} {row column : Nat}

/-- Something holds of the value; and it is not the reading that says that the table is gone. -/
def Reports (V : α → Prop) : Except Unavailable α → Prop
  | .ok a => V a
  | .error u => u ≠ .stalePeer

theorem reports_of_honest {read : Inquiry (Except Unavailable α)} (h : Honest read) :
    read.AllOf A (Reports fun _ => True) := by
  have reports : read.All (Reports fun _ => True) := by
    induction read with
    | done r =>
      cases r with
      | ok a => trivial
      | error u => exact fun stale => h (congrArg Except.error stale)
    | fail p => trivial
    | ask q next ih => exact fun answer => ih answer (h answer)
  exact reports.allOf

theorem reports_ofInquiry {i : Inquiry α} (h : i.AllOf A V) : (ofInquiry i).AllOf A (Reports V) :=
  h.bind fun _ value => value

theorem reports_ofColumn {i : Inquiry α} (h : A (.isColumn column) true → i.AllOf A V) :
    (ofColumn column i).AllOf A (Reports V) := by
  refine Inquiry.AllOf.question.bind fun there known => ?_
  cases there with
  | true => exact (h known).bind fun _ value => value
  | false => exact Inquiry.AllOf.question.bind fun _ _ stale => by cases stale

theorem reports_ofRow {i : Inquiry α} (h : A (.isRow row) true → i.AllOf A V) :
    (ofRow row i).AllOf A (Reports V) := by
  refine Inquiry.AllOf.question.bind fun there known => ?_
  cases there with
  | true => exact (h known).bind fun _ value => value
  | false => exact Inquiry.AllOf.question.bind fun _ _ stale => by cases stale

theorem reports_shape :
    shape.AllOf A (Reports fun s => A .rowCount s.rows ∧ A .columnCount s.columns) :=
  reports_ofInquiry (Inquiry.AllOf.question.bind fun _ _ => Inquiry.AllOf.question.bind fun _ rows =>
    Inquiry.AllOf.question.bind fun _ columns => .pure ⟨rows, columns⟩)

theorem reports_rowCount : rowCount.AllOf A (Reports (A .rowCount)) :=
  reports_ofInquiry .question

theorem reports_columnCount : columnCount.AllOf A (Reports (A .columnCount)) :=
  reports_ofInquiry .question

theorem reports_hasRow :
    (hasRow row).AllOf A (Reports fun there => there = true → A (.isRow row) true) :=
  reports_ofInquiry (Inquiry.AllOf.question.bind fun _ known => .pure fun there => there ▸ known)

theorem reports_hasColumn :
    (hasColumn column).AllOf A (Reports fun there => there = true → A (.isColumn column) true) :=
  reports_ofInquiry (Inquiry.AllOf.question.bind fun _ known => .pure fun there => there ▸ known)

theorem reports_hasCell : (hasCell row column).AllOf A
    (Reports fun there => there = true → A (.isRow row) true ∧ A (.isColumn column) true) := by
  refine reports_ofInquiry (Inquiry.AllOf.question.bind fun inRow known => ?_)
  cases inRow with
  | true => exact Inquiry.AllOf.question.bind fun _ known' => .pure fun there => ⟨known, there ▸ known'⟩
  | false => exact .pure fun there => by cases there

theorem reports_columnsOfRow : (columnsOfRow row).AllOf A
    (Reports fun n => A (.isRow row) true ∧ A .columnCount n) :=
  reports_ofRow fun there => Inquiry.AllOf.question.bind fun _ known => .pure ⟨there, known⟩

theorem reports_rowsOfColumn : (rowsOfColumn column).AllOf A
    (Reports fun n => A (.isColumn column) true ∧ A .rowCount n) :=
  reports_ofColumn fun there => Inquiry.AllOf.question.bind fun _ known => .pure ⟨there, known⟩

/-- A reading ends with a panic of its own, or tells of one, only if `T` holds of some. -/
def Steady (A : (q : Question) → q.Answer → Prop) (T : Panic → Prop)
    (read : Inquiry (Except Unavailable α)) : Prop :=
  read.EndsIn A T fun r => r = .error .handOffPanicked → ∃ panic, T panic

section Steady

variable {T : Panic → Prop}

/-- So it is if nothing is known of panics. -/
theorem steady_unknown (read : Inquiry (Except Unavailable α)) : Steady A (fun _ => True) read := by
  unfold Steady
  induction read with
  | done r => exact fun _ => ⟨Room.overflow, trivial⟩
  | fail p => trivial
  | ask q next ih => exact fun answer _ => ih answer

theorem steady_ofInquiry {i : Inquiry α} (h : i.EndsIn A T fun _ => True) :
    Steady A T (ofInquiry i) :=
  h.bind fun _ _ => .pure nofun

theorem steady_ofColumn {i : Inquiry α} (h : i.EndsIn A T fun _ => True) :
    Steady A T (ofColumn column i) := by
  refine Inquiry.EndsIn.question.bind fun there _ => ?_
  cases there with
  | true => exact h.bind fun _ _ => .pure nofun
  | false => exact Inquiry.EndsIn.question.bind fun _ _ => .pure nofun

theorem steady_ofRow {i : Inquiry α} (h : i.EndsIn A T fun _ => True) :
    Steady A T (ofRow row i) := by
  refine Inquiry.EndsIn.question.bind fun there _ => ?_
  cases there with
  | true => exact h.bind fun _ _ => .pure nofun
  | false => exact Inquiry.EndsIn.question.bind fun _ _ => .pure nofun

theorem steady_shape : Steady A T shape :=
  steady_ofInquiry (Inquiry.EndsIn.question.bind fun _ _ => Inquiry.EndsIn.question.bind fun _ _ =>
    Inquiry.EndsIn.question.bind fun _ _ => .pure trivial)

theorem steady_headerText : Steady A T (headerText column) := steady_ofColumn .question

theorem steady_hasCell : Steady A T (hasCell row column) := by
  refine steady_ofInquiry (Inquiry.EndsIn.question.bind fun inRow _ => ?_)
  cases inRow with
  | true => exact .question
  | false => exact .pure trivial

theorem steady_cell : Steady A T (cell row column) := by
  refine Inquiry.EndsIn.question.bind fun inRow _ => ?_
  cases inRow with
  | true =>
    exact steady_ofColumn (Inquiry.EndsIn.question.bind fun _ _ =>
      Inquiry.EndsIn.question.bind fun _ _ => .pure trivial)
  | false => exact Inquiry.EndsIn.question.bind fun _ _ => .pure nofun

end Steady

end Reading

/-! ### Tables that are asked again and again -/

namespace Table

variable {A : (q : Question) → q.Answer → Prop} {table later : Table}

/-- What a table may have become by being asked. -/
inductive Asked (table : Table) : Table → Prop where
  | new : Asked table table
  | ask {later : Table} (before : Asked table later) (checksOn : Bool) (now : Thread)
      (q : Question) : Asked table (later.ask checksOn now q).2

/-- Whatever a table was asked before, it answers so. -/
structure Always (A : (q : Question) → q.Answer → Prop) (table : Table) : Prop where
  /-- On any thread. -/
  answers : ∀ {later : Table}, table.Asked later → ∀ {checksOn : Bool} {now : Thread} {q : Question}
    {answer : q.Answer}, (later.ask checksOn now q).1 = .ok answer → A q answer

theorem Asked.trans {last : Table} (h : table.Asked later) (h' : later.Asked last) :
    table.Asked last := by
  induction h' with
  | new => exact h
  | ask before checksOn now q ih => exact ih.ask checksOn now q

/-- A table that always answers so still does when it was asked once more. -/
theorem Always.ask (h : table.Always A) (checksOn : Bool) (now : Thread) (q : Question) :
    (table.ask checksOn now q).2.Always A :=
  ⟨fun asked _ _ _ _ e => h.answers ((Asked.new.ask checksOn now q).trans asked) e⟩

/-- Asking an editable table changes nothing. -/
theorem eq_of_asked {g : GridTable} (h : (Table.grid g).Asked later) : later = .grid g := by
  induction h with
  | new => rfl
  | ask before checksOn now q ih =>
    subst ih
    rfl

end Table

theorem World.table?_setTable {w : World μ} {t : TableId} {table : Table} (h : w.table? t = some table)
    (new : Option Table) (t' : TableId) :
    (w.setTable t new).table? t' = if t' = t then new else w.table? t' := by
  unfold World.table? World.setTable
  rw [List.getElem?_set]
  by_cases same : t = t'
  · subst same
    simp [World.table?_lt h]
  · simp [same, Ne.symm same]

theorem World.modifyTree_eq {w : World μ} {t : TreeId} {tree : Tree} (ht : w.trees[t]? = some tree)
    (f : Tree → Tree) : w.modifyTree t f = { w with trees := w.trees.set t (f tree) } := by
  unfold modifyTree
  rw [List.modify_eq_set_getElem?, ht]
  rfl

theorem World.getElem?_modifyTree {w : World μ} {t : TreeId} {tree : Tree}
    (ht : w.trees[t]? = some tree) (f : Tree → Tree) (t' : TreeId) :
    (w.modifyTree t f).trees[t']? = if t' = t then some (f tree) else w.trees[t']? := by
  unfold modifyTree
  rw [List.getElem?_modify]
  by_cases same : t = t'
  · subst same
    simp [ht]
  · simp [same, Ne.symm same]

/-- Nothing is done to a tree that is not there. -/
theorem World.modifyTree_of_none {w : World μ} {t : TreeId} (ht : w.trees[t]? = none)
    (f : Tree → Tree) : w.modifyTree t f = w := by
  unfold modifyTree
  rw [List.modify_eq_self (List.getElem?_eq_none_iff.1 ht)]

/-- Latching peers leaves them to their tables and contexts. -/
theorem World.peer_of_latched {w : World μ} {p p' : PeerId} {peer : Peer}
    (h : (w.peers.modify p ({ · with invalidated := true }))[p']? = some peer) :
    ∃ before, w.peers[p']? = some before ∧ peer.table = before.table ∧
      peer.context = before.context := by
  rw [List.getElem?_modify] at h
  obtain ⟨before, there, rfl⟩ := Option.map_eq_some_iff.1 h
  refine ⟨before, there, ?_⟩
  split <;> exact ⟨rfl, rfl⟩

/-- A bridge that gets a root stays over its tree, and the others keep theirs. -/
theorem World.bridge_of_rooted {w : World μ} {b b' : BridgeId} {k : NodeKey} {bridge : Bridge}
    (h : (w.bridges.modify b ({ · with root := some k }))[b']? = some bridge) :
    ∃ before, w.bridges[b']? = some before ∧ bridge.tree = before.tree ∧
      (bridge.root = before.root ∨ b' = b ∧ bridge.root = some k) := by
  rw [List.getElem?_modify] at h
  obtain ⟨before, there, rfl⟩ := Option.map_eq_some_iff.1 h
  refine ⟨before, there, ?_⟩
  split
  · exact ⟨rfl, .inr ⟨Eq.symm ‹_›, rfl⟩⟩
  · exact ⟨rfl, .inl rfl⟩

/-! ### Scopes -/

/-- What may come up in a request. -/
structure Scope where
  /-- A peer may be asked. -/
  Peers : PeerId → Prop
  /-- In a tree, nodes with this table key are read through this peer. -/
  Family : TreeId → NodeKey → PeerId → Prop
  /-- A peer refers to a table and sends its readings to a context. -/
  Refers : PeerId → TableId → ContextId → Prop
  /-- A table may answer a question so. -/
  Answers : PeerId → (q : Question) → q.Answer → Prop
  /-- A row may get a node. -/
  Rows : PeerId → Nat → Prop
  /-- A column may get a node. -/
  Columns : PeerId → Nat → Prop
  /-- A peer may be latched. -/
  Gone : PeerId → Prop
  /-- A peer may be taken for invalid. -/
  Invalid : PeerId → Prop
  /-- A tree is there. -/
  Planted : TreeId → Prop
  /-- In a tree, a node may be looked up by its key. -/
  Reaches : TreeId → NodeKey → Prop
  /-- A table may be taken out of a tree. -/
  Detachable : TreeId → NodeKey → Prop
  /-- A table may be attached to a tree. -/
  Attachable : TreeId → TableId → Prop
  /-- A bridge is there. -/
  Spans : BridgeId → Prop
  /-- It is over a tree. -/
  Over : BridgeId → TreeId → Prop
  /-- It has a root. -/
  Roots : BridgeId → NodeKey → Prop

namespace Scope

/-- Everything may come up. -/
def any : Scope where
  Peers _ := True
  Family _ _ _ := True
  Refers _ _ _ := True
  Answers _ _ _ := True
  Rows _ _ := True
  Columns _ _ := True
  Gone _ := True
  Invalid _ := True
  Planted _ := True
  Reaches _ _ := True
  Detachable _ _ := True
  Attachable _ _ := True
  Spans _ := True
  Over _ _ := True
  Roots _ _ := True

variable {S : Scope} {C : Conduct μ} {P T : Panic → Prop} {w₀ w : World μ} {p : PeerId} {t : TableId}
  {c : ContextId} {V : α → Prop}

/-- A peer may be latched if its table is found dropped or disposed of here. -/
structure Judges (S : Scope) (p : PeerId) (t : TableId) (w : World μ) : Prop where
  /-- The table is found dropped. -/
  dropped : w.table? t = none → S.Gone p
  /-- The table says that it was disposed of. -/
  disposed : ∀ {table}, w.table? t = some table →
    (table.ask w.checksOn w.thread .isDisposed).1 = .ok true → S.Gone p

/-- Reading tables through peers keeps to a conduct. -/
structure Reads (S : Scope) (C : Conduct μ) (P : Panic → Prop) (T : Panic → Prop := fun _ => True) :
    Prop where
  /-- Who goes on may stop at once, and tell something. -/
  plain : C.Plain T
  /-- A peer that is asked refers to its table. -/
  refers : ∀ {w₀ w : World μ} {p peer}, C.Along w₀ w → S.Peers p → w.peers[p]? = some peer →
    S.Refers p peer.table peer.context
  /-- A latched peer may be taken for invalid. -/
  latched : ∀ {w₀ w : World μ} {p peer}, C.Along w₀ w → w.peers[p]? = some peer →
    peer.invalidated = true → S.Invalid p
  /-- So may one that is not there, -/
  nobody : ∀ {w₀ w : World μ} {p}, C.Along w₀ w → w.peers[p]? = none → S.Invalid p
  /-- and one that may be latched. -/
  gone : ∀ {p}, S.Gone p → S.Invalid p
  /-- A table is asked on the thread of the context of a peer that refers to it. -/
  asks : ∀ {w₀ w : World μ} {p t c table}, C.Along w₀ w → w.thread = .toolkit c → S.Refers p t c →
    w.table? t = some table → ∀ q : Question,
      C.Along w₀ (w.setTable t (some (table.ask w.checksOn w.thread q).2)) ∧
        ∀ answer, (table.ask w.checksOn w.thread q).1 = .ok answer → S.Answers p q answer
  /-- It may panic. -/
  fails : ∀ {w₀ w : World μ} {p t c table}, C.Along w₀ w → w.thread = .toolkit c → S.Refers p t c →
    w.table? t = some table → ∀ (q : Question) (panic : Panic),
      (table.ask w.checksOn w.thread q).1 = .error panic → T panic := by intros; trivial
  /-- A peer that may be latched is, and that is told. -/
  invalidates : ∀ {w₀ w : World μ} {p peer}, C.Along w₀ w → S.Gone p → w.peers[p]? = some peer →
    peer.invalidated = false → C.Along w₀
      (World.tell { w with peers := w.peers.modify p ({ · with invalidated := true }) }
        .peerInvalidated)
  /-- The clock cannot tell until when the context of a peer is to be waited for. -/
  overruns : ∀ {w₀ w : World μ} {p peer context}, C.Along w₀ w → S.Peers p →
    w.peers[p]? = some peer → w.contexts[peer.context]? = some context →
    ¬context.timeout.FitsClock w.clock → P deadlineOverflow

/-- What a reading of a table has found. -/
def Found (S : Scope) (T : Panic → Prop) (p : PeerId) (V : α → Prop) :
    Option (Except Unavailable α) → Prop
  | none => S.Gone p
  | some (.ok a) => V a
  | some (.error u) => (u = .stalePeer → S.Gone p) ∧ (u = .handOffPanicked → ∃ panic, T panic)

/-- What a peer reports. -/
def Told (S : Scope) (T : Panic → Prop) (p : PeerId) (V : α → Prop) : Except Unavailable α → Prop
  | .ok a => V a
  | .error u => (u = .stalePeer → S.Invalid p) ∧ (u = .handOffPanicked → ∃ panic, T panic)

namespace Reads

variable (h : S.Reads C P T)

include h

/-- An inquiry of a table keeps to the conduct. -/
theorem run {i : Inquiry α} {table : Table} (along : C.Along w₀ w) (here : w.thread = .toolkit c)
    (refers : S.Refers p t c) (ht : w.table? t = some table)
    (ends : i.EndsIn (S.Answers p) T V) :
    C.Along w₀ (w.setTable t (some (i.run w.checksOn w.thread table).2)) ∧
      Allowed T V (i.run w.checksOn w.thread table).1 := by
  induction i generalizing w table with
  | done a =>
    refine ⟨?_, ends⟩
    rw [Inquiry.run, World.setTable_self ht]
    exact along
  | fail p =>
    refine ⟨?_, ends⟩
    rw [Inquiry.run, World.setTable_self ht]
    exact along
  | ask q next ih =>
    obtain ⟨asked, known⟩ := h.asks along here refers ht q
    have fails := h.fails along here refers ht q
    simp only [Inquiry.run]
    cases e : table.ask w.checksOn w.thread q with
    | mk answer table' =>
      rw [e] at asked known fails
      cases answer with
      | error p => exact ⟨asked, fails p rfl⟩
      | ok answer =>
        have there : (w.setTable t (some table')).table? t = some table' := by
          rw [World.table?_eq_some_iff]
          simp [World.setTable, World.table?_lt ht]
        have rest := ih answer asked here there (ends answer (known answer rfl))
        simpa [World.setTable] using rest

/-- A table is read on the thread of its context. -/
theorem consult {read : Inquiry (Except Unavailable α)} (along : C.Along w₀ w)
    (here : w.thread = .toolkit c) (refers : S.Refers p t c) (judges : S.Judges p t w)
    (all : read.AllOf (S.Answers p) (Reading.Reports V)) (steady : Reading.Steady (S.Answers p) T read) :
    (consult t (Reading.ofLive read)).KeepsFrom C w₀ w T (S.Found T p V) := by
  unfold TableAccess.consult
  refine .get ?_
  split
  · exact .pure along (judges.dropped ‹_›)
  · rename_i table ht
    have live := run_ofLive read w.checksOn w.thread table
    obtain ⟨asked, -⟩ := h.asks along here refers ht .isDisposed
    have fails := h.fails along here refers ht .isDisposed
    have found := judges.disposed ht
    generalize (Reading.ofLive read).run w.checksOn w.thread table = r at live
    cases e : table.ask w.checksOn w.thread .isDisposed with
    | mk answer table₁ =>
      rw [e] at live asked fails found
      cases answer with
      | error panic =>
        subst live
        exact .modify (.throw asked (fails panic rfl))
      | ok disposed =>
        cases disposed with
        | true =>
          subst live
          exact .modify (.pure asked ⟨fun _ => found rfl, nofun⟩)
        | false =>
          have there : (w.setTable t (some table₁)).table? t = some table₁ := by
            rw [World.table?_eq_some_iff]
            simp [World.setTable, World.table?_lt ht]
          obtain ⟨along', value⟩ := h.run asked here refers there (.and all steady)
          have along' : C.Along w₀
              (w.setTable t (some (read.run w.checksOn w.thread table₁).2)) := by
            simpa [World.setTable] using along'
          have value : Allowed T _ (read.run w.checksOn w.thread table₁).1 := value
          have live : r = read.run w.checksOn w.thread table₁ := live
          rw [← live] at along' value
          obtain ⟨result, table₂⟩ := r
          cases result with
          | error panic => exact .modify (.throw along' value)
          | ok a =>
            refine .modify (.pure along' ?_)
            cases a with
            | ok a => exact value.1
            | error u => exact ⟨fun stale => absurd stale value.1, fun panics => value.2 (congrArg _ panics)⟩

/-- A peer that may be latched remembers that its table is gone. -/
theorem invalidate (along : C.Along w₀ w) (gone : S.Gone p) :
    (Peer.invalidate p).KeepsFrom C w₀ w P fun _ => True := by
  unfold Peer.invalidate
  refine .get ?_
  split
  · exact .pure along trivial
  · rename_i peer hp
    split
    · exact .pure along trivial
    · rename_i unlatched
      exact .modify ⟨h.invalidates along gone hp (Bool.eq_false_iff.2 unlatched), trivial⟩

/-- A reading through a peer. Where it is done at once the table is judged here, and otherwise where
the thread of its context finds it. -/
theorem query {read : Inquiry (Except Unavailable α)} (along : C.Along w₀ w) (may : S.Peers p)
    (inline : ∀ {peer}, w.peers[p]? = some peer → w.thread = .toolkit peer.context →
      S.Judges p peer.table w)
    (finds : ∀ {w t c}, C.Finds w → w.thread = .toolkit c → S.Refers p t c → S.Judges p t w)
    (all : read.AllOf (S.Answers p) (Reading.Reports V))
    (steady : Reading.Steady (S.Answers p) T read) :
    (Peer.query p read).KeepsFrom C w₀ w P (S.Told T p V) := by
  unfold Peer.query
  refine .get ?_
  cases hp : w.peers[p]? with
  | none => exact .pure along ⟨fun _ => h.nobody along hp, nofun⟩
  | some peer =>
    dsimp only
    by_cases latched : peer.invalidated = true
    · rw [if_pos latched]
      exact .pure along ⟨fun _ => h.latched along hp latched, nofun⟩
    · rw [if_neg latched]
      have refers := h.refers along may hp
      refine .bind (Q := Act.Answered T (S.Found T p V)) ?_ fun w₀ w outcome along answered => ?_
      · refine .handOff h.plain along (fun here => ?_) (fun found here => ?_)
          fun hc late => h.overruns along may hp hc late
        · have judges := inline hp here
          exact h.consult (h.plain.told along _) here refers ⟨judges.dropped, judges.disposed⟩ all steady
        · exact h.consult (h.plain.along found) here refers (finds found here refers) all steady
      · have stale : S.Gone p → (do
            Peer.invalidate p
            pure (.error .stalePeer) : Act μ (Except Unavailable α)).KeepsFrom C w₀ w P
              (S.Told T p V) :=
          fun gone => .bind (h.invalidate along gone) fun _ _ _ along _ =>
            .pure along ⟨fun _ => h.gone gone, nofun⟩
        cases outcome with
        | error u =>
          cases u with
          | stalePeer => cases answered.1
          | _ => exact .pure along ⟨nofun, answered.2⟩
        | ok found =>
          cases found with
          | none => exact stale answered
          | some r =>
            cases r with
            | ok a => exact .pure along answered
            | error u =>
              cases u with
              | stalePeer => exact stale (answered.1 rfl)
              | _ => exact .pure along ⟨nofun, answered.2⟩

theorem isInvalidated (along : C.Along w₀ w) :
    (Peer.isInvalidated p : Act μ Bool).KeepsFrom C w₀ w P fun b => b = true → S.Invalid p := by
  unfold Peer.isInvalidated
  refine .get ?_
  split
  · exact .pure along fun _ => h.nobody along ‹_›
  · exact .pure along fun latched => h.latched along ‹_› latched

/-- A peer is taken for valid unless it may be taken for invalid. -/
theorem isValid (along : C.Along w₀ w) (may : S.Peers p)
    (absent : ∀ {peer}, w.peers[p]? = some peer → w.table? peer.table = none → S.Gone p)
    (inline : ∀ {peer}, w.peers[p]? = some peer → w.thread = .toolkit peer.context →
      S.Judges p peer.table w)
    (finds : ∀ {w t c}, C.Finds w → w.thread = .toolkit c → S.Refers p t c → S.Judges p t w) :
    (Peer.isValid p).KeepsFrom C w₀ w P fun valid => valid = false → S.Invalid p := by
  unfold Peer.isValid
  refine .get ?_
  cases hp : w.peers[p]? with
  | none => exact .pure along fun _ => h.nobody along hp
  | some peer =>
    dsimp only
    by_cases latched : peer.invalidated = true
    · rw [if_pos latched]
      exact .pure along fun _ => h.latched along hp latched
    · rw [if_neg latched]
      by_cases dropped : (w.table? peer.table).isNone = true
      · rw [if_pos dropped]
        have gone := absent hp (Option.isNone_iff_eq_none.1 dropped)
        exact .bind (h.invalidate along gone) fun _ _ _ along _ => .pure along fun _ => h.gone gone
      · rw [if_neg dropped]
        refine .bind (h.query along may inline finds (V := fun _ => True) (.pure trivial) (.pure nofun))
          fun w₀ w r along told => ?_
        cases r with
        | ok _ => exact .pure along fun no => by cases no
        | error u =>
          cases u with
          | stalePeer => exact .pure along fun _ => told.1 rfl
          | _ =>
            refine .bind (h.isInvalidated along) fun _ _ b along latched => .pure along fun no => ?_
            exact latched (by simpa using no)

end Reads

end Scope

end TableAccess
