import TableAccess.Proofs.Preorder
import TableAccess.Proofs.Written

/-!
# Visits

A visit writes out a node and then visits its children, one after the other. Whatever the tables
answer, no node is visited twice: the children of a node stand for parts of it that have nothing in
common, and a tree has one node for an identity.

## The model

* `Identity.Covers` — one thing is another or a part of it.
* `Tries` — one attempt to write out a node after the other.
* `Visited` — what a visit of some nodes has come to.
* `visit_run` — every visit comes to that.
-/

namespace TableAccess

variable {μ : Type} {R : World μ → World μ → Prop} {w w' w'' : World μ} {t : TreeId} {a : Adapter}

/-! ### Parts of parts -/

namespace Identity

variable {i j x : Identity} {parts : List Identity}

/-- The second is the first or a part of it. -/
def Covers : Identity → Identity → Prop
  | .table k, i => i.tableKey = k
  | .row k r, i => i = .row k r ∨ ∃ c, i = .cell k r c
  | .column k c, i => i = .column k c
  | .cell k r c, i => i = .cell k r c

/-- How many levels of nodes it has in the serialized tree. -/
def levels : Identity → Nat
  | .table _ => 3
  | .row _ _ => 2
  | .column _ _ => 1
  | .cell _ _ _ => 1

theorem levels_le (i : Identity) : i.levels ≤ Adapter.levels := by
  cases i <;> simp [levels, Adapter.levels]

theorem Covers.refl (i : Identity) : i.Covers i := by
  cases i <;> simp [Covers, tableKey]

/-- A child is a row or a column of a table, or a cell of a row. -/
theorem Divided.of_mem (h : i.Divided parts) (hj : j ∈ parts) :
    (∃ k r, i = .table k ∧ j = .row k r) ∨ (∃ k c, i = .table k ∧ j = .column k c) ∨
      ∃ k r c, i = .row k r ∧ j = .cell k r c := by
  cases i with
  | table k =>
    obtain ⟨rows, columns, rfl⟩ := h
    rcases List.mem_append.1 hj with hj | hj
    · obtain ⟨r, -, rfl⟩ := List.mem_map.1 hj
      exact .inl ⟨k, r, rfl, rfl⟩
    · obtain ⟨c, -, rfl⟩ := List.mem_map.1 hj
      exact .inr (.inl ⟨k, c, rfl, rfl⟩)
  | row k r =>
    obtain ⟨columns, rfl⟩ := h
    obtain ⟨c, -, rfl⟩ := List.mem_map.1 hj
    exact .inr (.inr ⟨k, r, c, rfl, rfl⟩)
  | column k c | cell k r c =>
    cases h
    cases hj

/-- What a child covers its parent covers. -/
theorem Divided.covers (h : i.Divided parts) (hj : j ∈ parts) (hx : j.Covers x) : i.Covers x := by
  rcases h.of_mem hj with ⟨k, r, rfl, rfl⟩ | ⟨k, c, rfl, rfl⟩ | ⟨k, r, c, rfl, rfl⟩
  · rcases hx with rfl | ⟨c, rfl⟩ <;> rfl
  · cases hx
    rfl
  · exact .inr ⟨c, hx⟩

/-- No child covers its parent. -/
theorem Divided.not_covers (h : i.Divided parts) (hj : j ∈ parts) : ¬j.Covers i := by
  rcases h.of_mem hj with ⟨k, r, rfl, rfl⟩ | ⟨k, c, rfl, rfl⟩ | ⟨k, r, c, rfl, rfl⟩ <;>
    simp [Covers]

/-- Children have fewer levels. -/
theorem Divided.levels_lt (h : i.Divided parts) (hj : j ∈ parts) : j.levels < i.levels := by
  rcases h.of_mem hj with ⟨k, r, rfl, rfl⟩ | ⟨k, c, rfl, rfl⟩ | ⟨k, r, c, rfl, rfl⟩ <;>
    simp [levels]

/-- Two children cover nothing in common. -/
theorem Divided.apart (h : i.Divided parts) :
    parts.Pairwise fun j j' => ∀ x, j.Covers x → ¬j'.Covers x := by
  cases i with
  | table k =>
    obtain ⟨rows, columns, rfl⟩ := h
    rw [List.pairwise_append, List.pairwise_map, List.pairwise_map]
    refine ⟨?_, ?_, ?_⟩
    · refine List.nodup_range.imp fun {r r'} other x hx hx' => ?_
      rcases hx with rfl | ⟨c, rfl⟩ <;> simp [Covers] at hx' <;> exact other hx'
    · refine List.nodup_range.imp fun {c c'} other x hx hx' => ?_
      cases hx
      exact other (Identity.column.inj hx').2
    · intro j hj j' hj' x hx hx'
      obtain ⟨r, -, rfl⟩ := List.mem_map.1 hj
      obtain ⟨c, -, rfl⟩ := List.mem_map.1 hj'
      cases hx'
      simp [Covers] at hx
  | row k r =>
    obtain ⟨columns, rfl⟩ := h
    rw [List.pairwise_map]
    refine List.nodup_range.imp fun {c c'} other x hx hx' => ?_
    cases hx
    exact other (Identity.cell.inj hx').2.2
  | column k c | cell k r c =>
    cases h
    exact .nil

end Identity

/-! ### Tries -/

/-- Nodes are tried to be written out, one after the other, and each time there is what comes of it:
nothing if the node is not in the tree or cannot be had. -/
inductive Tries (R : World μ → World μ → Prop) (t : TreeId) :
    World μ → List Attempt → World μ → Prop where
  /-- Nothing is tried. -/
  | nil (w : World μ) : Tries R t w [] w
  /-- A node that is not in the tree is passed over. -/
  | absent {w w' : World μ} {id : NodeId} {tree : Tree} {rest : List Attempt}
      (ht : w.trees[t]? = some tree) (gone : tree.get? (.ofRaw id) = none)
      (others : Tries R t w rest w') : Tries R t w ((id, none) :: rest) w'
  /-- A node in the tree is built. -/
  | built {w w₁ w' : World μ} {id : NodeId} {tree : Tree} {a : Adapter} {result : Option TreeNode}
      {rest : List Attempt} (ht : w.trees[t]? = some tree) (ha : tree.get? (.ofRaw id) = some a)
      (run : a.build.Ends R w (.ok result) w₁) (others : Tries R t w₁ rest w') :
    Tries R t w ((id, result) :: rest) w'

theorem Tries.append {attempts attempts' : List Attempt} (h : Tries R t w attempts w')
    (h' : Tries R t w' attempts' w'') : Tries R t w (attempts ++ attempts') w'' := by
  induction h with
  | nil => exact h'
  | absent ht gone others ih => exact .absent ht gone (ih h')
  | built ht ha run others ih => exact .built ht ha run (ih h')

/-- What a visit of some nodes has come to. -/
structure Visited (R : World μ → World μ → Prop) (t : TreeId) (w : World μ) (nodes : List Adapter)
    (attempts : List Attempt) (w' : World μ) : Prop where
  /-- Nodes were tried. -/
  tries : Tries R t w attempts w'
  /-- The tree keeps its nodes. -/
  retains : World.Retains t w w'
  /-- First the nodes themselves and what is below each. -/
  preorder : Preorder Attempt.listed (Adapter.ids nodes) attempts
  /-- None was tried twice. -/
  distinct : (attempts.map Prod.fst).Nodup
  /-- All that was tried stands for parts of what the nodes stand for. -/
  covered : ∀ id ∈ attempts.map Prod.fst, ∃ a ∈ nodes, ∃ b, w'.Holds t b ∧ b.key.toRaw = id ∧
    a.identity.Covers b.identity

theorem Visited.nil (w : World μ) : Visited R t w [] [] w where
  tries := .nil w
  retains := .refl w
  preorder := .nil
  distinct := List.nodup_nil
  covered id hid := by cases hid

/-- Nodes that have no parts in common are visited one after the other. -/
theorem Visited.append {nodes : List Adapter} {attempts attempts' : List Attempt}
    (h : Visited R t w [a] attempts w') (h' : Visited R t w' nodes attempts' w'')
    (apart : ∀ b ∈ nodes, ∀ x, a.identity.Covers x → ¬b.identity.Covers x) :
    Visited R t w (a :: nodes) (attempts ++ attempts') w'' where
  tries := h.tries.append h'.tries
  retains := h.retains.trans h'.retains
  preorder := h.preorder.append h'.preorder
  distinct := by
    rw [List.map_append, List.nodup_append]
    refine ⟨h.distinct, h'.distinct, ?_⟩
    intro id hid id' hid' same
    obtain ⟨a', ha', b, hb, key, covers⟩ := h.covered id hid
    obtain ⟨c, hc, b', hb', key', covers'⟩ := h'.covered id' hid'
    obtain rfl := List.mem_singleton.1 ha'
    have one := (h'.retains.holds hb).eq_of_key hb'
      (NodeKey.toRaw_injective (key.trans (same.trans key'.symm)))
    exact apart c hc _ covers (one ▸ covers')
  covered id hid := by
    rw [List.map_append, List.mem_append] at hid
    rcases hid with hid | hid
    · obtain ⟨a', ha', b, hb, rest⟩ := h.covered id hid
      obtain rfl := List.mem_singleton.1 ha'
      exact ⟨a', List.mem_cons_self, b, h'.retains.holds hb, rest⟩
    · obtain ⟨c, hc, rest⟩ := h'.covered id hid
      exact ⟨c, List.mem_cons_of_mem a hc, rest⟩

/-- A node that could not be had is visited. -/
theorem Visited.failed (holds : w'.Holds t a) (tries : Tries R t w [(a.key.toRaw, none)] w')
    (retains : World.Retains t w w') : Visited R t w [a] [(a.key.toRaw, none)] w' where
  tries := tries
  retains := retains
  preorder := .tree .nil
  distinct := List.nodup_singleton _
  covered id hid := by
    obtain rfl := List.mem_singleton.1 hid
    exact ⟨a, List.mem_singleton_self a, a, holds, rfl, .refl _⟩

/-- A node that was written out is visited once its children are. -/
theorem Visited.built {n : TreeNode} {nodes : List Adapter} {attempts : List Attempt}
    (holds : w'.Holds t a) (first : Tries R t w [(a.key.toRaw, some n)] w')
    (retains : World.Retains t w w') (lists : n.children = Adapter.ids nodes)
    (divided : a.identity.Divided (nodes.map Adapter.identity))
    (below : Visited R t w' nodes attempts w'') :
    Visited R t w [a] ((a.key.toRaw, some n) :: attempts) w'' where
  tries := first.append below.tries
  retains := retains.trans below.retains
  preorder := by
    have inside : Preorder Attempt.listed (Attempt.listed (some n)) attempts := by
      show Preorder _ n.children attempts
      rw [lists]
      exact below.preorder
    exact .tree inside
  distinct := by
    refine List.nodup_cons.2 ⟨?_, below.distinct⟩
    intro mem
    obtain ⟨c, hc, b, hb, key, covers⟩ := below.covered _ mem
    have one := hb.eq_of_key (below.retains.holds holds) (NodeKey.toRaw_injective key)
    exact divided.not_covers (List.mem_map_of_mem hc) (one ▸ covers)
  covered id hid := by
    rcases List.mem_cons.1 hid with rfl | hid
    · exact ⟨a, List.mem_singleton_self a, a, below.retains.holds holds, rfl, .refl _⟩
    · obtain ⟨c, hc, b, hb, key, covers⟩ := below.covered id hid
      exact ⟨a, List.mem_singleton_self a, b, hb, key,
        divided.covers (List.mem_map_of_mem hc) covers⟩

/-- Acts that visit one node each visit all of them. -/
theorem each_visited {act : NodeId → Act μ (List (NodeId × TreeNode))} {nodes : List Adapter}
    {results : List (List (NodeId × TreeNode))}
    (visits : ∀ {a w w' ns}, a ∈ nodes → w.Holds t a → (act a.key.toRaw).Ends R w (.ok ns) w' →
      ∃ attempts, ns = built attempts ∧ Visited R t w [a] attempts w')
    (there : ∀ a ∈ nodes, w.Holds t a) (apart : (nodes.map Adapter.identity).Pairwise
      fun j j' => ∀ x, j.Covers x → ¬j'.Covers x)
    (run : (Act.each (Adapter.ids nodes) act).Ends R w (.ok results) w') :
    ∃ attempts, results.flatten = built attempts ∧ Visited R t w nodes attempts w' := by
  induction nodes generalizing w results with
  | nil =>
    obtain ⟨rfl, rfl⟩ := run.each_nil
    exact ⟨[], rfl, .nil _⟩
  | cons a nodes ih =>
    obtain ⟨ns, w₁, results', first, others, rfl⟩ := run.each_cons
    obtain ⟨own, rest⟩ := List.pairwise_cons.1 apart
    obtain ⟨attempts, e, visited⟩ := visits List.mem_cons_self (there a List.mem_cons_self) first
    obtain ⟨attempts', e', visited'⟩ := ih (fun mem => visits (List.mem_cons_of_mem a mem))
      (fun b hb => visited.retains.holds (there b (List.mem_cons_of_mem a hb))) rest others
    refine ⟨attempts ++ attempts', ?_, visited.append visited' ?_⟩
    · rw [List.flatten_cons, e, e', built_append]
    · intro b hb
      exact own _ (List.mem_map_of_mem hb)

/-- The node in a tree is found under its id. -/
theorem World.Holds.get? (h : w.Holds t a) :
    ∃ tree, w.trees[t]? = some tree ∧ tree.get? (.ofRaw a.key.toRaw) = some a := by
  obtain ⟨tree, ht, -, stored⟩ := h
  exact ⟨tree, ht, by rw [NodeKey.ofRaw_toRaw, stored]⟩

/-- Every visit of a node that is in the tree comes to this. -/
theorem visit_run (others : ∀ {w w' : World μ}, R w w' → World.Retains t w w') {depth : Nat}
    {ns : List (NodeId × TreeNode)} (holds : w.Holds t a) (deep : a.identity.levels ≤ depth)
    (run : (visit t depth a.key).Ends R w (.ok ns) w') :
    ∃ attempts, ns = built attempts ∧ Visited R t w [a] attempts w' := by
  induction depth generalizing w w' ns a with
  | zero => cases h : a.identity <;> rw [h] at deep <;> cases deep
  | succ depth ih =>
    obtain ⟨tree, ht, stored⟩ := holds.get?
    rcases run.getTree with ⟨tree', ht', run⟩ | ⟨⟨p, e⟩, -⟩
    · rw [ht] at ht'
      cases ht'
      rw [NodeKey.ofRaw_toRaw] at stored
      simp only [stored] at run
      obtain ⟨result, w₁, building, run⟩ := run.bind_ok
      have retains := (Adapter.build_retains others holds.here).run building
      have tried : Tries R t w [(a.key.toRaw, result)] w₁ :=
        .built ht (by rw [NodeKey.ofRaw_toRaw, stored]) building (.nil w₁)
      cases result with
      | none =>
        obtain ⟨e, rfl⟩ := run.pure
        cases e
        exact ⟨_, rfl, .failed (retains.holds holds) tried retains⟩
      | some n =>
        obtain ⟨nodes, lists, there, divided⟩ := Adapter.build_lists others holds building
        obtain ⟨below, w₂, visiting, run⟩ := run.bind_ok
        obtain ⟨e, rfl⟩ := run.pure
        cases e
        rw [lists] at visiting
        have visits : ∀ {b : Adapter} {w w' : World μ} {ns : List (NodeId × TreeNode)}, b ∈ nodes →
            w.Holds t b → (visit t depth (.ofRaw b.key.toRaw)).Ends R w (.ok ns) w' →
            ∃ attempts, ns = TableAccess.built attempts ∧ Visited R t w [b] attempts w' := by
          intro b w w' ns hb holds run
          rw [NodeKey.ofRaw_toRaw] at run
          have less := divided.levels_lt (List.mem_map_of_mem hb)
          exact ih holds (by omega) run
        obtain ⟨attempts, e, visited⟩ := each_visited visits there divided.apart visiting
        refine ⟨_, ?_, .built (retains.holds holds) tried retains lists divided visited⟩
        rw [e]
        rfl
    · cases e

end TableAccess
