import RichDoc.Proofs.Dom.Preorder
import RichDoc.Proofs.Dom.Runs

/-!
# Walks that end

A walk goes on step by step: along the siblings, or from the top of a stack of nodes to its children
and then to the rest of the stack. In a forest both come to an end by themselves, so that the bounds
on their steps are never reached. What the walk with the stack visits is the recursive order of the
tree: a node, and then the orders of its children.
-/

namespace RichDoc

/-- What a step by step walk gives until no step is left. -/
inductive Yields {σ α : Type} (step : σ → Option (α × σ)) : σ → List α → Prop where
  | done {s} : step s = none → Yields step s []
  | more {s s' a out} : step s = some (a, s') → Yields step s' out → Yields step s (a :: out)

/-- A walk gives one thing only. -/
theorem Yields.iff_eq {σ α : Type} {step : σ → Option (α × σ)} {s : σ} {out : List α}
    (h : Yields step s out) (other : List α) : Yields step s other ↔ other = out := by
  refine ⟨fun h' => ?_, fun he => he ▸ h⟩
  induction h generalizing other with
  | done hnone =>
    cases h' with
    | done _ => rfl
    | more hsome _ => cases hnone.symm.trans hsome
  | more hsome _ ih =>
    cases h' with
    | done hnone => cases hnone.symm.trans hsome
    | more hsome' hrest =>
      obtain ⟨rfl, rfl⟩ := Prod.mk.inj (Option.some.inj (hsome'.symm.trans hsome))
      rw [ih _ hrest]

namespace Dom

variable {dom : Dom}

/-- One step along the siblings. -/
def siblingStep (dom : Dom) : Link → Option (NodeId × Link)
  | none => none
  | some id => some (id, dom.nextSibling (some id))

/-- One step with a stack: the top node is visited, and its children come in its place. -/
def stackStep (dom : Dom) : List NodeId → Option (NodeId × List NodeId)
  | [] => none
  | id :: stack => some (id, dom.children (some id) ++ stack)

/-- Linked nodes are what the steps along the siblings give. -/
theorem Linked.yields {parent : NodeId} {before : Link} {kids : List NodeId}
    (h : dom.Linked parent before kids) : Yields dom.siblingStep kids.head? kids := by
  induction kids generalizing before with
  | nil => exact .done rfl
  | cons id rest ih =>
    obtain ⟨⟨cell, hc, -, -, hnext⟩, hrest⟩ := h
    have hget : dom.get? (some id) = some cell := hc
    refine .more ?_ (ih hrest)
    rw [List.head?_cons, siblingStep, nextSibling, hget, Option.bind_some, hnext]

/-- A walk that does not use up its steps has come to its end. Each step gives one node, so with
steps to spare the stack is empty. -/
theorem yields_walk {steps : Nat} {stack : List NodeId}
    (h : (dom.walk steps stack).length < steps) :
    Yields dom.stackStep stack (dom.walk steps stack) := by
  induction steps generalizing stack with
  | zero => cases h
  | succ steps ih =>
    cases stack with
    | nil => exact .done rfl
    | cons id stack => exact .more rfl (ih (Nat.lt_of_succ_lt_succ h))

/-- A walk from a node comes to an end, as do the walks along siblings that it needs. It visits each
node at or below its start once, first that node and then, child by child, what the walks from the
children visit. -/
structure Walked (dom : Dom) (root : NodeId) : Prop where
  ends : ∀ out, Yields dom.stackStep [root] out ↔ out = dom.descendants (some root)
  children_end : ∀ id out,
    Yields dom.siblingStep (dom.firstChild (some id)) out ↔ out = dom.children (some id)
  order : dom.descendants (some root) =
    root :: (dom.children (some root)).flatMap fun child => dom.descendants (some child)
  nodup : (dom.descendants (some root)).Nodup
  mem_iff : ∀ x, x ∈ dom.descendants (some root) ↔ dom.Under x root

/-- The search for all elements with a tag finds those at or below a node, in the order of the walk,
and the search for one finds the first of them. -/
structure Finds (dom : Dom) (root : NodeId) (tag : String) : Prop where
  sublist : (dom.findAllByTag (some root) tag).Sublist (dom.descendants (some root))
  mem_iff : ∀ x, x ∈ dom.findAllByTag (some root) tag ↔
    dom.Under x root ∧ dom.tag? (some x) = some tag
  first : dom.findByTag (some root) tag = (dom.findAllByTag (some root) tag).head?

namespace WellFormed

theorem yields_children (hw : dom.WellFormed) (id : NodeId) :
    Yields dom.siblingStep (dom.firstChild (some id)) (dom.children (some id)) := by
  have hkids := hw.isChildren id
  rw [firstChild, hkids.first]
  exact hkids.linked.yields

theorem yields_descendants (hw : dom.WellFormed) {root : NodeId} (hroot : root < dom.size) :
    Yields dom.stackStep [root] (dom.descendants (some root)) := by
  have hlength := hw.length_nodes_lt hroot
  rw [← List.length_map, ← hw.descendants_eq, descendants, if_pos hroot] at hlength
  rw [descendants, if_pos hroot]
  exact yields_walk hlength

/-- The nodes of a tree are visited from the top: its root, and then the trees of its children. -/
theorem descendants_cons (hw : dom.WellFormed) {root : NodeId} (hroot : root < dom.size) :
    dom.descendants (some root) =
      root :: (dom.children (some root)).flatMap fun child => dom.descendants (some child) := by
  rw [hw.descendants_eq, hw.tree_eq hroot, Tree.nodes, Tree.nodesOf_eq, childTrees,
    List.flatMap_map, List.map_cons, List.map_flatMap]
  simp only [hw.descendants_eq]

theorem mem_descendants_iff (hw : dom.WellFormed) {root : NodeId} (hroot : root < dom.size)
    (x : NodeId) : x ∈ dom.descendants (some root) ↔ dom.Under x root := by
  rw [hw.descendants_eq, List.mem_map]
  constructor
  · rintro ⟨node, hnode, rfl⟩
    exact ((hw.mem_nodes_iff hroot).mp hnode).1
  · intro hu
    have hdata := data?_eq dom (lt_size_of_under hu hroot)
    exact ⟨(x, _), (hw.mem_nodes_iff hroot).mpr ⟨hu, hdata⟩, rfl⟩

theorem walked (hw : dom.WellFormed) {root : NodeId} (hroot : root < dom.size) :
    dom.Walked root where
  ends := (hw.yields_descendants hroot).iff_eq
  children_end id := (hw.yields_children id).iff_eq
  order := hw.descendants_cons hroot
  nodup := hw.descendants_eq (some root) ▸ (hw.nodes_tree (some root)).2
  mem_iff := hw.mem_descendants_iff hroot

theorem finds (hw : dom.WellFormed) {root : NodeId} (hroot : root < dom.size) (tag : String) :
    dom.Finds root tag where
  sublist := List.filter_sublist
  mem_iff x := by
    rw [findAllByTag, List.mem_filter, hw.mem_descendants_iff hroot, beq_iff_eq]
  first := by rw [findByTag, findAllByTag, List.head?_filter]

/-- The text below a node is its own text and then, child by child, the text below its children. -/
theorem innerText_cons (hw : dom.WellFormed) {root : NodeId} (hroot : root < dom.size) :
    dom.innerText (some root) = (dom.text? (some root)).getD "" ++
      String.join ((dom.children (some root)).map fun child => dom.innerText (some child)) := by
  have hkids : ∀ kids : List NodeId,
      String.join ((kids.flatMap fun child => dom.descendants (some child)).filterMap fun id =>
          dom.text? (some id)) =
        String.join (kids.map fun child => dom.innerText (some child)) := by
    intro kids
    induction kids with
    | nil => rfl
    | cons child rest ih =>
      rw [List.flatMap_cons, List.filterMap_append, String.join_append, ih, List.map_cons,
        String.join_cons, innerText]
  rw [innerText, hw.descendants_cons hroot, List.filterMap_cons, ← hkids]
  cases dom.text? (some root) with
  | none => rw [Option.getD_none, String.empty_append]
  | some text => rw [Option.getD_some, String.join_cons]

/-- In a forest the walk from a node ends, and visits what is at or below the node in the recursive
order. So the searches find the elements with a tag that are there, and the text below a node is put
together from its own text and those below its children. -/
theorem descendants_preorder (hw : dom.WellFormed) {root : NodeId} (hroot : root < dom.size) :
    dom.Walked root ∧ (∀ tag, dom.Finds root tag) ∧
      dom.innerText (some root) = (dom.text? (some root)).getD "" ++
        String.join ((dom.children (some root)).map fun child => dom.innerText (some child)) :=
  ⟨hw.walked hroot, hw.finds hroot, hw.innerText_cons hroot⟩

/-- The walk goes down from the first child before it comes to the second one. -/
theorem descendants_preorder_sample :
    let dom := [.create (.element (.html "div") []), .create (.element (.html "p") []),
      .create (.text "a"), .create (.element (.html "p") []), .append 2 3, .append 1 2,
      .append 1 4].foldl Edit.apply .empty
    dom.WellFormed ∧ 1 < dom.size ∧ dom.Walked 1 ∧ dom.descendants (some 1) = [1, 2, 3, 4] ∧
      dom.Finds 1 "p" ∧ dom.findAllByTag (some 1) "p" = [2, 4] ∧
      dom.innerText (some 1) = "a" := by
  intro dom
  have hloose : ∀ {dom : Dom} {p x : NodeId}, dom.parent (some p) = none → x ≠ p →
      ¬dom.Under p x := not_under_of_parent_none
  have hw : dom.WellFormed := Edit.AllAllowed.wellFormed wellFormed_empty
    ⟨trivial, trivial, trivial, trivial, ⟨by decide, by decide, hloose rfl (by decide)⟩,
      ⟨by decide, by decide, hloose rfl (by decide)⟩,
      ⟨by decide, by decide, hloose rfl (by decide)⟩, trivial⟩
  have hroot : 1 < dom.size := by decide
  obtain ⟨hwalked, hfinds, -⟩ := hw.descendants_preorder hroot
  exact ⟨hw, hroot, hwalked, by decide +kernel, hfinds "p", by decide +kernel,
    by decide +kernel⟩

end WellFormed

end Dom

end RichDoc
