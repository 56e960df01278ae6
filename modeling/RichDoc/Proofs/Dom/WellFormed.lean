import RichDoc.Dom.Tree
import Mathlib.Data.List.Forall2
import Mathlib.Data.List.Perm.Subperm
import Mathlib.Logic.Relation

/-!
# Well-formed stores

In a well-formed store the links describe a forest: the children of each node are a list, linked in
both directions and to the node, and no node is above itself. Such a store unfolds into trees, and
the bounds on the walks cut nothing off.
-/

namespace RichDoc.Dom

/-- Nodes are linked one after another below a parent, the first of them behind some sibling. -/
def Linked (dom : Dom) (parent : NodeId) : Link → List NodeId → Prop
  | _, [] => True
  | before, id :: rest =>
    (∃ cell, dom.cells[id]? = some cell ∧ cell.parent = some parent ∧
      cell.prevSibling = before ∧ cell.nextSibling = rest.head?) ∧
    Linked dom parent (some id) rest

/-- The children of a node, first to last. -/
structure IsChildren (dom : Dom) (id : NodeId) (kids : List NodeId) : Prop where
  first : (dom.get? (some id)).bind (·.firstChild) = kids.head?
  last : (dom.get? (some id)).bind (·.lastChild) = kids.getLast?
  linked : dom.Linked id none kids
  nodup : kids.Nodup
  complete : ∀ other, dom.parent (some other) = some id → other ∈ kids

/-- The links of a store describe a forest. -/
structure WellFormed (dom : Dom) : Prop where
  children : ∀ id < dom.size, ∃ kids, dom.IsChildren id kids
  parents : ∀ id p, dom.parent (some id) = some p → p < dom.size
  /-- A node without a parent has no siblings. -/
  alone : ∀ cell ∈ dom.cells, cell.parent = none →
    cell.prevSibling = none ∧ cell.nextSibling = none
  acyclic : ∀ id, ¬Relation.TransGen (fun child p => dom.parent (some child) = some p) id id

/-- A tree is what stands below a node. -/
inductive Shows (dom : Dom) : NodeId → Tree → Prop where
  | node {id cell kids trees} : dom.cells[id]? = some cell → dom.IsChildren id kids →
      List.Forall₂ (Shows dom) kids trees → Shows dom id (.node id cell.data trees)

namespace Linked

variable {dom : Dom} {parent : NodeId} {before : Link} {kids : List NodeId}

/-- Linked nodes have the parent. -/
theorem parent_eq (h : dom.Linked parent before kids) {id : NodeId} (hid : id ∈ kids) :
    dom.parent (some id) = some parent := by
  induction kids generalizing before with
  | nil => cases hid
  | cons first rest ih =>
    obtain ⟨⟨cell, hc, hp, -, -⟩, hrest⟩ := h
    rcases List.mem_cons.mp hid with rfl | hid
    · rw [Dom.parent, get?]
      simp only [Option.bind_some, hc, hp]
    · exact ih hrest hid

theorem lt_size (h : dom.Linked parent before kids) {id : NodeId} (hid : id ∈ kids) :
    id < dom.size := by
  have hp := h.parent_eq hid
  by_contra hlt
  rw [Dom.parent, get?, Option.bind_some,
    Array.getElem?_eq_none (Nat.le_of_not_lt hlt)] at hp
  cases hp

/-- Following the links to the next sibling lists the nodes. -/
theorem chain_eq (h : dom.Linked parent before kids) {steps : Nat} (hs : kids.length ≤ steps) :
    dom.chain steps kids.head? = kids := by
  induction kids generalizing before steps with
  | nil => cases steps <;> rfl
  | cons id rest ih =>
    obtain ⟨⟨cell, hc, -, -, hnext⟩, hrest⟩ := h
    cases steps with
    | zero => cases hs
    | succ steps =>
      rw [List.head?_cons, chain, get?, Option.bind_some, hc, Option.bind_some, hnext,
        ih hrest (Nat.le_of_succ_le_succ hs)]

end Linked

/-- Nodes of a store that are all different are not more than its size. -/
theorem length_le_size {dom : Dom} {ids : List NodeId} (hn : ids.Nodup)
    (hlt : ∀ id ∈ ids, id < dom.size) : ids.length ≤ dom.size := by
  have hsub : ids ⊆ List.range dom.size := fun id hid => List.mem_range.mpr (hlt id hid)
  have hle := (hn.subperm hsub).length_le
  rwa [List.length_range] at hle

/-- The walk along the siblings finds the children. -/
theorem IsChildren.children_eq {dom : Dom} {id : NodeId} {kids : List NodeId}
    (h : dom.IsChildren id kids) : dom.children (some id) = kids := by
  have hle := length_le_size h.nodup fun _ hk => h.linked.lt_size hk
  rw [children, h.first, h.linked.chain_eq (Nat.le_succ_of_le hle)]

/-- Unfolding a node shows what stands below it. The nodes above it are all different, so the depth
is enough. -/
theorem WellFormed.treeTo_shows {dom : Dom} (hw : dom.WellFormed) {depth : Nat} {id : NodeId}
    {path : List NodeId} (hnodup : (id :: path).Nodup) (hlt : ∀ x ∈ id :: path, x < dom.size)
    (habove : ∀ x ∈ path,
      Relation.TransGen (fun child p => dom.parent (some child) = some p) id x)
    (hdepth : dom.size < depth + path.length) : dom.Shows id (dom.treeTo depth (some id)) := by
  induction depth generalizing id path with
  | zero =>
    have hle := length_le_size hnodup hlt
    rw [List.length_cons] at hle
    omega
  | succ depth ih =>
    have hid := hlt id (List.mem_cons_self ..)
    obtain ⟨kids, hkids⟩ := hw.children id hid
    have hcell : dom.cells[id]? = some dom.cells[id] := Array.getElem?_eq_getElem hid
    have hget : dom.get? (some id) = some dom.cells[id] := hcell
    have hunfold : dom.treeTo (depth + 1) (some id) =
        .node id dom.cells[id].data (kids.map fun child => dom.treeTo depth (some child)) := by
      rw [treeTo, hkids.children_eq]
      exact hget
    rw [hunfold]
    refine .node hcell hkids ?_
    rw [List.forall₂_map_right_iff, List.forall₂_same]
    intro child hchild
    have hparent := hkids.linked.parent_eq hchild
    have hup : ∀ x ∈ id :: path,
        Relation.TransGen (fun child p => dom.parent (some child) = some p) child x := by
      intro x hx
      rcases List.mem_cons.mp hx with rfl | hx
      · exact .single hparent
      · exact .head hparent (habove x hx)
    refine ih (List.nodup_cons.mpr ⟨fun hmem => hw.acyclic child (hup child hmem), hnodup⟩) ?_ hup
      (by rw [List.length_cons]; omega)
    exact List.forall_mem_cons.mpr ⟨hkids.linked.lt_size hchild, hlt⟩

/-- The tree of a node is what stands below it. -/
theorem WellFormed.tree_shows {dom : Dom} (hw : dom.WellFormed) {id : NodeId}
    (hid : id < dom.size) : dom.Shows id (dom.tree (some id)) :=
  hw.treeTo_shows (List.nodup_cons.mpr ⟨List.not_mem_nil, List.nodup_nil⟩)
    (List.forall_mem_singleton.mpr hid) (List.forall_mem_nil _) (Nat.lt_succ_self _)

/-- A store in which parents come before their children has no circles. -/
theorem acyclic_of_lt {dom : Dom} (h : ∀ id p, dom.parent (some id) = some p → p < id)
    (id : NodeId) : ¬Relation.TransGen (fun child p => dom.parent (some child) = some p) id id := by
  intro hcircle
  have hlt : ∀ x, Relation.TransGen (fun child p => dom.parent (some child) = some p) id x →
      x < id := by
    intro x hx
    induction hx with
    | single hp => exact h _ _ hp
    | tail _ hp ih => exact Nat.lt_trans (h _ _ hp) ih
  exact Nat.lt_irrefl id (hlt id hcircle)

end RichDoc.Dom
