import TableAccess.Proofs.ScopedRequests
import TableAccess.Proofs.TreeRuns

/-!
# Attaching tables

Attaching a table asks nothing of it and waits for nobody. It is over at once, and there are few
things it can come to.

## The model

* `Attached`, `attachTable_run` — what attaching a table to a tree comes to.
* `Bridge.Attached`, `Bridge.attach_run` — what attaching it through a bridge comes to.
-/

namespace TableAccess

variable {μ : Type} {w w' : World μ} {t : TreeId} {tree : Tree} {table : TableId}

theorem getTree_none (ht : w.trees[t]? = none) : getTree t w = .done (.error noTree) w := by
  unfold getTree
  simp only [Act.bind_apply, Act.get_apply, Progress.bind, ht]
  rfl

/-- What attaching a table to a tree comes to. -/
inductive Attached (t : TreeId) (table : TableId) (w : World μ) :
    Except Panic Adapter → World μ → Prop where
  /-- There is no such tree. -/
  | absent (ht : w.trees[t]? = none) : Attached t table w (.error noTree) w
  /-- The table is attached, and not known to be gone. -/
  | found {tree : Tree} {a : Adapter} (ht : w.trees[t]? = some tree)
      (found : tree.tables.find? (standsFor w table) = some a) : Attached t table w (.ok a) w
  /-- The tree takes no more nodes. -/
  | full {tree : Tree} (ht : w.trees[t]? = some tree) (next : tree.nodes.nextKey? = none) :
    Attached t table w (.error treeFull) w
  /-- It gets a peer and a node. -/
  | made {tree : Tree} {k : NodeKey} (ht : w.trees[t]? = some tree)
      (next : tree.nodes.nextKey? = some k) :
    Attached t table w (.ok ⟨k, .table k, none, w.peers.length, t⟩)
      ((World.modifyTree { w with peers := w.peers ++ [⟨table, tree.context, false⟩] } t
        (·.add ⟨k, .table k, none, w.peers.length, t⟩)).tell (.tableAttached k.toRaw))

theorem attachTable_run (t : TreeId) (table : TableId) (w : World μ) :
    ∃ result w', attachTable t table w = .done result w' ∧ Attached t table w result w' := by
  unfold attachTable
  rw [Act.bind_apply]
  cases ht : w.trees[t]? with
  | none =>
    rw [getTree_none ht]
    exact ⟨_, _, rfl, .absent ht⟩
  | some tree =>
    rw [getTree_run ht]
    simp only [Act.bind_apply, Act.get_apply, Progress.bind]
    cases found : tree.tables.find? (standsFor w table) with
    | some a => exact ⟨_, _, rfl, .found ht found⟩
    | none =>
      cases next : tree.nodes.nextKey? with
      | none => exact ⟨_, _, rfl, .full ht next⟩
      | some k => exact ⟨_, _, rfl, .made ht next⟩

section Attached

variable {result : Except Panic Adapter}

theorem Attached.thread (h : Attached t table w result w') : w'.thread = w.thread := by
  cases h <;> rfl

theorem Attached.tables (h : Attached t table w result w') : w'.tables = w.tables := by
  cases h <;> rfl

theorem Attached.bridges (h : Attached t table w result w') : w'.bridges = w.bridges := by
  cases h <;> rfl

end Attached

theorem Attached.planted {a : Adapter} (h : Attached t table w (.ok a) w') :
    ∃ tree, w'.trees[t]? = some tree := by
  cases h with
  | found ht => exact ⟨_, ht⟩
  | @made tree k ht next =>
    refine ⟨tree.add ⟨k, .table k, none, w.peers.length, t⟩, ?_⟩
    show (w.trees.modify t _)[t]? = _
    simp only [List.getElem?_modify_eq, ht]
    rfl

namespace Bridge

variable {b : BridgeId} {bridge : Bridge}

theorem getBridge_run (hb : w.bridges[b]? = some bridge) :
    getBridge b w = .done (.ok bridge) w := by
  unfold getBridge
  simp only [Act.bind_apply, Act.get_apply, Progress.bind, hb]
  rfl

/-- What attaching a table through a bridge comes to. -/
inductive Attached (b : BridgeId) (table : TableId) (w : World μ) :
    Except Panic Adapter → World μ → Prop where
  /-- There is no such bridge. -/
  | absent (hb : w.bridges[b]? = none) : Attached b table w (.error noBridge) w
  /-- It is attached to the tree of the bridge, or not. -/
  | attached {bridge : Bridge} {result : Except Panic Adapter} {w' : World μ}
      (hb : w.bridges[b]? = some bridge)
      (attached : TableAccess.Attached bridge.tree table w result w') : Attached b table w result w'
  /-- It has become the root. -/
  | root {bridge : Bridge} {a : Adapter} {w' : World μ} (hb : w.bridges[b]? = some bridge)
      (attached : TableAccess.Attached bridge.tree table w (.ok a) w') :
    Attached b table w (.ok a) { w'.tell (.becameRoot a.key.toRaw) with
      bridges := w'.bridges.modify b ({ · with root := some a.key }) }

section Attached

variable {result : Except Panic Adapter}

theorem Attached.thread (h : Bridge.Attached b table w result w') : w'.thread = w.thread := by
  cases h with
  | absent => rfl
  | attached _ attached => exact attached.thread
  | root _ attached => exact attached.thread

theorem Attached.tables (h : Bridge.Attached b table w result w') : w'.tables = w.tables := by
  cases h with
  | absent => rfl
  | attached _ attached => exact attached.tables
  | root _ attached => exact attached.tables

end Attached

theorem root?_run {tree : Tree} (hb : w.bridges[b]? = some bridge)
    (ht : w.trees[bridge.tree]? = some tree) :
    root? b w = .done (.ok (bridge.root.filter fun k => (tree.get? k).isSome)) w := by
  unfold root?
  simp only [Act.bind_apply, getBridge_run hb, getTree_run ht, Progress.bind, Act.pure_apply]

theorem attach_run (b : BridgeId) (table : TableId) (w : World μ) :
    ∃ result w', attach b table w = .done result w' ∧ Attached b table w result w' := by
  unfold attach
  rw [Act.bind_apply]
  cases hb : w.bridges[b]? with
  | none =>
    refine ⟨.error noBridge, w, ?_, .absent hb⟩
    unfold getBridge
    simp only [Act.bind_apply, Act.get_apply, Progress.bind, hb]
    rfl
  | some bridge =>
    obtain ⟨result, w₁, run, attached⟩ := attachTable_run bridge.tree table w
    rw [getBridge_run hb]
    simp only [Act.bind_apply, Progress.bind, run]
    cases result with
    | error p => exact ⟨_, _, rfl, .attached hb attached⟩
    | ok a =>
      obtain ⟨tree, ht⟩ := attached.planted
      simp only [Progress.bind, Act.bind_apply, root?_run (attached.bridges ▸ hb) ht]
      cases (bridge.root.filter fun k => (tree.get? k).isSome).isNone with
      | true => exact ⟨_, _, rfl, .root hb attached⟩
      | false => exact ⟨_, _, rfl, .attached hb attached⟩

end Bridge

end TableAccess
