import RichDoc.Proofs.Dom.Links
import Mathlib.Data.List.Nodup

/-!
# The nodes below a node

The tree below a node of a well-formed store holds each node at most once. It unfolds from parents
to children, so what holds of a node as soon as it holds of its children holds everywhere. The walk
with a stack visits the nodes of the tree in its order.
-/

namespace RichDoc

namespace Tree

theorem nodesOf_eq (trees : List Tree) : nodesOf trees = trees.flatMap nodes := by
  induction trees with
  | nil => rw [nodesOf, List.flatMap_nil]
  | cons tree rest ih => rw [nodesOf, List.flatMap_cons, ih]

end Tree

namespace Dom

variable {dom : Dom}

/-- To be a child of a node. -/
def ChildOf (dom : Dom) (child p : NodeId) : Prop := dom.parent (some child) = some p

mutual

/-- Below a node that unfolds into a tree no path goes on for ever. -/
theorem acc_of_shows : (tree : Tree) → {id : NodeId} → dom.Shows id tree → Acc dom.ChildOf id
  | .node _ _ trees, _, h => by
    cases h with
    | node _ hkids htrees =>
      exact Acc.intro _ fun child hchild => accs_of_shows trees htrees child
        (hkids.complete child hchild)
  | .absent _, _, h => nomatch h

theorem accs_of_shows : (trees : List Tree) → {kids : List NodeId} →
    List.Forall₂ dom.Shows kids trees → ∀ kid ∈ kids, Acc dom.ChildOf kid
  | [], _, h => by
    cases h
    exact List.forall_mem_nil _
  | tree :: rest, _, h => by
    cases h with
    | cons htree hrest =>
      exact List.forall_mem_cons.mpr ⟨acc_of_shows tree htree, accs_of_shows rest hrest⟩

end

/-- Lists that are related to one list, each of whose members is related to one thing at most. -/
private theorem eq_of_forall₂_of_unique {α β : Type} {R : α → β → Prop} {l : List α} {m m' : List β}
    (hu : ∀ a ∈ l, ∀ b b', R a b → R a b' → b = b') (h : List.Forall₂ R l m)
    (h' : List.Forall₂ R l m') : m = m' := by
  induction h generalizing m' with
  | nil =>
    cases h'
    rfl
  | cons hfirst _ ih =>
    cases h' with
    | cons hfirst' hrest' =>
      obtain ⟨hone, hrest⟩ := List.forall_mem_cons.mp hu
      rw [hone _ _ hfirst hfirst', ih hrest hrest']

theorem lt_size_of_under {x y : NodeId} (h : dom.Under x y) (hy : y < dom.size) :
    x < dom.size := by
  rcases Relation.ReflTransGen.cases_head h with rfl | ⟨p, hp, -⟩
  · exact hy
  · exact lt_size_of_parent hp

/-- Below a link to no cell stands no tree. -/
theorem tree_of_le {id : NodeId} (hid : dom.size ≤ id) :
    dom.tree (some id) = .absent (some id) := by
  have hnone : dom.get? (some id) = none := Array.getElem?_eq_none hid
  simp only [tree, treeTo, hnone]

namespace WellFormed

/-- No path leads down for ever. -/
theorem wellFounded (hw : dom.WellFormed) : WellFounded dom.ChildOf := by
  refine ⟨fun id => ?_⟩
  by_cases hid : id < dom.size
  · exact acc_of_shows _ (hw.tree_shows hid)
  · exact Acc.intro id fun child hchild => absurd (hw.parents child id hchild) hid

/-- What holds of a node as soon as it holds of its children holds of every node. -/
theorem induction_children (hw : dom.WellFormed) {motive : NodeId → Prop}
    (step : ∀ id, (∀ child ∈ dom.children (some id), motive child) → motive id) (id : NodeId) :
    motive id :=
  hw.wellFounded.induction id fun id ih =>
    step id fun child hchild => ih child (hw.mem_children_iff.mp hchild)

/-- Only one tree stands below a node. -/
theorem shows_unique (hw : dom.WellFormed) (id : NodeId) :
    ∀ tree other, dom.Shows id tree → dom.Shows id other → tree = other := by
  induction id using hw.induction_children with
  | step id ih =>
    intro tree other h h'
    cases h with
    | @node _ cell kids trees hcell hkids htrees =>
      cases h' with
      | @node _ cell' kids' others hcell' hkids' hothers =>
        obtain rfl := Option.some.inj (hcell.symm.trans hcell')
        obtain rfl := hkids.children_eq.symm.trans hkids'.children_eq
        have hall : ∀ child ∈ kids, ∀ tree other, dom.Shows child tree → dom.Shows child other →
            tree = other := by
          intro child hchild
          refine ih child ?_
          rw [hkids.children_eq]
          exact hchild
        rw [eq_of_forall₂_of_unique hall htrees hothers]

/-- The tree of a node is its payload over the trees of its children. -/
theorem tree_eq (hw : dom.WellFormed) {id : NodeId} (hid : id < dom.size) :
    dom.tree (some id) = .node id dom.cells[id].data (dom.childTrees (some id)) := by
  have hcell : dom.cells[id]? = some dom.cells[id] := Array.getElem?_eq_getElem hid
  refine hw.shows_unique id _ _ (hw.tree_shows hid) (.node hcell (hw.isChildren id) ?_)
  rw [childTrees, List.forall₂_map_right_iff, List.forall₂_same]
  exact fun child hchild => hw.tree_shows (hw.lt_size_of_mem_children hchild)

theorem data?_eq (dom : Dom) {id : NodeId} (hid : id < dom.size) :
    dom.data? (some id) = some dom.cells[id].data := by
  rw [data?, get?, Option.bind_some, Array.getElem?_eq_getElem hid, Option.map_some]

/-- The tree of a node whose payload is known. -/
theorem tree_of_data? (hw : dom.WellFormed) {id : NodeId} {data : NodeData}
    (h : dom.data? (some id) = some data) :
    id < dom.size ∧ dom.tree (some id) = .node id data (dom.childTrees (some id)) := by
  have hid : id < dom.size := by
    by_contra hge
    rw [data?, get?, Option.bind_some, Array.getElem?_eq_none (Nat.le_of_not_lt hge)] at h
    cases h
  rw [data?_eq dom hid] at h
  exact ⟨hid, Option.some.inj h ▸ hw.tree_eq hid⟩

/-! ### What is at or below a node -/

/-- A child is not above its parent. -/
theorem not_under_parent (hw : dom.WellFormed) {x p : NodeId} (h : dom.parent (some x) = some p) :
    ¬dom.Under p x := fun hu =>
  hw.acyclic p (Relation.TransGen.trans_right hu (.single h))

/-- Two nodes that are above a third one are above each other. -/
theorem under_total {x y z : NodeId} (hy : dom.Under x y) (hz : dom.Under x z) :
    dom.Under y z ∨ dom.Under z y :=
  Relation.ReflTransGen.total_of_right_unique
    (fun _ _ _ h h' => Option.some.inj (h.symm.trans h')) hy hz

/-- What is below two children is below one child twice. -/
theorem eq_of_under_children (hw : dom.WellFormed) {x y z p : NodeId}
    (hy : dom.parent (some y) = some p) (hz : dom.parent (some z) = some p) (hxy : dom.Under x y)
    (hxz : dom.Under x z) : y = z := by
  have hle : ∀ a b, dom.parent (some a) = some p → dom.parent (some b) = some p →
      dom.Under a b → a = b := by
    intro a b ha hb hab
    rcases Relation.ReflTransGen.cases_head hab with he | ⟨q, hq, hqb⟩
    · exact he
    · obtain rfl : p = q := Option.some.inj (ha.symm.trans hq)
      exact absurd hqb (hw.not_under_parent hb)
  rcases under_total hxy hxz with h | h
  · exact hle y z hy hz h
  · exact (hle z y hz hy h).symm

/-! ### The nodes of the tree of a node -/

/-- The nodes of a tree are at or below its root, with their payloads. -/
theorem of_mem_nodes (hw : dom.WellFormed) (id : NodeId) (hid : id < dom.size) :
    ∀ node ∈ (dom.tree (some id)).nodes,
      dom.Under node.1 id ∧ node.1 < dom.size ∧ dom.data? (some node.1) = some node.2 := by
  induction id using hw.induction_children with
  | step id ih =>
    intro node hnode
    rw [hw.tree_eq hid, Tree.nodes, List.mem_cons, Tree.nodesOf_eq, List.mem_flatMap] at hnode
    rcases hnode with rfl | ⟨tree, htree, hnode⟩
    · exact ⟨.refl, hid, data?_eq dom hid⟩
    · obtain ⟨child, hchild, rfl⟩ := List.mem_map.mp htree
      obtain ⟨hunder, hlt, hdata⟩ := ih child hchild (hw.lt_size_of_mem_children hchild) node hnode
      exact ⟨hunder.tail (hw.mem_children_iff.mp hchild), hlt, hdata⟩

/-- The nodes of a tree are all that are at or below its root. -/
theorem mem_nodes_iff (hw : dom.WellFormed) {id : NodeId} (hid : id < dom.size)
    {node : NodeId × NodeData} :
    node ∈ (dom.tree (some id)).nodes ↔
      dom.Under node.1 id ∧ dom.data? (some node.1) = some node.2 := by
  constructor
  · intro hnode
    obtain ⟨hunder, -, hdata⟩ := hw.of_mem_nodes id hid node hnode
    exact ⟨hunder, hdata⟩
  · rintro ⟨hunder, hdata⟩
    induction id using hw.induction_children with
    | step id ih =>
      rw [hw.tree_eq hid, Tree.nodes, List.mem_cons, Tree.nodesOf_eq, List.mem_flatMap]
      rcases Relation.ReflTransGen.cases_tail hunder with he | ⟨child, hchild, hparent⟩
      · rw [← he, data?_eq dom hid] at hdata
        exact Or.inl (Prod.ext he.symm (Option.some.inj hdata).symm)
      · have hmem := hw.mem_children_iff.mpr hparent
        exact Or.inr ⟨_, List.mem_map_of_mem hmem,
          ih child hmem (hw.lt_size_of_mem_children hmem) hchild⟩

/-- A tree holds no node twice. -/
theorem nodup_nodes (hw : dom.WellFormed) (id : NodeId) (hid : id < dom.size) :
    ((dom.tree (some id)).nodes.map Prod.fst).Nodup := by
  induction id using hw.induction_children with
  | step id ih =>
    have hunder : ∀ child ∈ dom.children (some id),
        ∀ x ∈ (dom.tree (some child)).nodes.map Prod.fst, dom.Under x child := by
      intro child hchild x hx
      obtain ⟨node, hnode, rfl⟩ := List.mem_map.mp hx
      exact (hw.of_mem_nodes child (hw.lt_size_of_mem_children hchild) node hnode).1
    rw [hw.tree_eq hid, Tree.nodes, List.map_cons, Tree.nodesOf_eq, childTrees, List.flatMap_map,
      List.map_flatMap, List.nodup_cons, List.nodup_flatMap]
    refine ⟨?_, ?_, ?_⟩
    · intro hmem
      obtain ⟨child, hchild, hx⟩ := List.mem_flatMap.mp hmem
      exact hw.not_under_parent (hw.mem_children_iff.mp hchild) (hunder child hchild id hx)
    · exact fun child hchild => ih child hchild (hw.lt_size_of_mem_children hchild)
    · refine (hw.nodup_children id).imp_of_mem fun {y z} hy hz hne => ?_
      intro x hxy hxz
      exact hne (hw.eq_of_under_children (hw.mem_children_iff.mp hy) (hw.mem_children_iff.mp hz)
        (hunder y hy x hxy) (hunder z hz x hxz))

/-- A tree has no more nodes than the store. -/
theorem length_nodes_le (hw : dom.WellFormed) {id : NodeId} (hid : id < dom.size) :
    (dom.tree (some id)).nodes.length ≤ dom.size := by
  have hlt : ∀ x ∈ (dom.tree (some id)).nodes.map Prod.fst, x < dom.size := by
    intro x hx
    obtain ⟨node, hnode, rfl⟩ := List.mem_map.mp hx
    exact (hw.of_mem_nodes id hid node hnode).2.1
  have hle := length_le_size (hw.nodup_nodes id hid) hlt
  rwa [List.length_map] at hle

/-- The walk with a stack may take more steps than a tree has nodes. -/
theorem length_nodes_lt (hw : dom.WellFormed) {id : NodeId} (hid : id < dom.size) :
    (dom.tree (some id)).nodes.length < Nat.pow 2 (dom.size + 2) :=
  calc (dom.tree (some id)).nodes.length ≤ dom.size := hw.length_nodes_le hid
    _ < dom.size + 2 := by omega
    _ < 2 ^ (dom.size + 2) := Nat.lt_two_pow_self

/-! ### The walk with a stack -/

/-- The walk visits the trees of the stack one after another, given enough steps. -/
theorem walk_eq (hw : dom.WellFormed) {steps : Nat} {stack : List NodeId}
    (hlt : ∀ id ∈ stack, id < dom.size)
    (hsteps : (Tree.nodesOf (stack.map fun id => dom.tree (some id))).length < steps) :
    dom.walk steps stack =
      (Tree.nodesOf (stack.map fun id => dom.tree (some id))).map Prod.fst := by
  induction steps generalizing stack with
  | zero => cases hsteps
  | succ steps ih =>
    cases stack with
    | nil => rw [walk, List.map_nil, Tree.nodesOf, List.map_nil]
    | cons id stack =>
      obtain ⟨hid, hrest⟩ := List.forall_mem_cons.mp hlt
      have hstack : Tree.nodesOf ((id :: stack).map fun id => dom.tree (some id)) =
          (id, dom.cells[id].data) ::
            Tree.nodesOf ((dom.children (some id) ++ stack).map fun id => dom.tree (some id)) := by
        rw [List.map_cons, Tree.nodesOf, hw.tree_eq hid, Tree.nodes, List.cons_append,
          Tree.nodesOf_eq, Tree.nodesOf_eq, Tree.nodesOf_eq, ← List.flatMap_append, childTrees,
          List.map_append]
      rw [hstack, List.length_cons] at hsteps
      rw [hstack, walk, List.map_cons, ih ?_ (Nat.lt_of_succ_lt_succ hsteps)]
      intro x hx
      rcases List.mem_append.mp hx with hx | hx
      · exact hw.lt_size_of_mem_children hx
      · exact hrest x hx

/-- The descendants of a node are the nodes of its tree in document order. -/
theorem descendants_eq (hw : dom.WellFormed) (link : Link) :
    dom.descendants link = (dom.tree link).nodes.map Prod.fst := by
  cases link with
  | none => rfl
  | some id =>
    rw [descendants]
    by_cases hid : id < dom.size
    · have hone : Tree.nodesOf ([id].map fun id => dom.tree (some id)) =
          (dom.tree (some id)).nodes := by
        rw [List.map_singleton, Tree.nodesOf_eq, List.flatMap_singleton]
      have hsteps := hw.length_nodes_lt hid
      rw [if_pos hid, hw.walk_eq (List.forall_mem_singleton.mpr hid) (by rwa [hone]), hone]
    · rw [if_neg hid, tree_of_le (Nat.le_of_not_lt hid)]
      rfl

/-- The nodes of a tree have their payloads in the store, and no two of them are the same. -/
theorem nodes_tree (hw : dom.WellFormed) (link : Link) :
    (∀ node ∈ (dom.tree link).nodes, dom.data? (some node.1) = some node.2) ∧
      ((dom.tree link).nodes.map Prod.fst).Nodup := by
  have hnone : (dom.tree link).nodes = [] ∨ ∃ id < dom.size, link = some id := by
    cases link with
    | none => exact Or.inl rfl
    | some id =>
      by_cases hid : id < dom.size
      · exact Or.inr ⟨id, hid, rfl⟩
      · exact Or.inl (by rw [tree_of_le (Nat.le_of_not_lt hid), Tree.nodes])
  rcases hnone with hnone | ⟨id, hid, rfl⟩
  · rw [hnone]
    exact ⟨List.forall_mem_nil _, List.nodup_nil⟩
  · exact ⟨fun node hnode => (hw.of_mem_nodes id hid node hnode).2.2, hw.nodup_nodes id hid⟩

/-- The joined texts below a node are those of its tree. -/
theorem innerText_eq (hw : dom.WellFormed) {id : NodeId} (hid : id < dom.size) :
    dom.innerText (some id) = (dom.tree (some id)).innerText := by
  rw [innerText, hw.descendants_eq, List.filterMap_map, Tree.innerText]
  congr 1
  refine List.filterMap_congr fun node hnode => ?_
  rw [Function.comp_apply, text?, (hw.of_mem_nodes id hid node hnode).2.2, Option.bind_some]

end WellFormed

end Dom

end RichDoc
