import RichDoc.Proofs.Dom.Preorder
import RichDoc.Proofs.Html.Markup

/-!
# Outlines of trees

An outline is a tree without the names of its nodes. It marks the nodes that take content, so that
it also says which node of a tree is the hole, and what the tree becomes when the hole is filled.
-/

namespace RichDoc

/-- A tree without the names of its nodes. -/
inductive Outline where
  | node (data : NodeData) (isHole : Bool) (children : List Outline)
  deriving Inhabited

namespace Outline

mutual

/-- Fill the holes: content comes behind the children that are there. -/
def fill (content : List Outline) : Outline → Outline
  | .node data isHole children =>
    .node data false (fillAll content children ++ if isHole then content else [])

/-- Fill the holes of outlines. -/
def fillAll (content : List Outline) : List Outline → List Outline
  | [] => []
  | outline :: rest => fill content outline :: fillAll content rest

end

mutual

/-- The texts of an outline, joined in document order. -/
def text : Outline → String
  | .node data _ children => data.text?.getD "" ++ texts children

/-- The texts of outlines. -/
def texts : List Outline → String
  | [] => ""
  | outline :: rest => text outline ++ texts rest

end

theorem fillAll_eq_map (content outlines : List Outline) :
    fillAll content outlines = outlines.map (fill content) := by
  induction outlines with
  | nil => rw [fillAll, List.map_nil]
  | cons outline rest ih => rw [fillAll, ih, List.map_cons]

theorem texts_append (outlines others : List Outline) :
    texts (outlines ++ others) = texts outlines ++ texts others := by
  induction outlines with
  | nil => rw [List.nil_append, texts, String.empty_append]
  | cons outline rest ih => rw [List.cons_append, texts, texts, ih, String.append_assoc]

mutual

/-- Whether something holds of the payload and the children of each node of an outline. -/
def Each (p : NodeData → List Outline → Prop) : Outline → Prop
  | .node data _ children => p data children ∧ EachOf p children

/-- Whether something holds of each node of some outlines. -/
def EachOf (p : NodeData → List Outline → Prop) : List Outline → Prop
  | [] => True
  | outline :: rest => Each p outline ∧ EachOf p rest

end

theorem eachOf_append {p : NodeData → List Outline → Prop} {outlines others : List Outline} :
    EachOf p (outlines ++ others) ↔ EachOf p outlines ∧ EachOf p others := by
  induction outlines with
  | nil => rw [List.nil_append, EachOf, true_and]
  | cons outline rest ih => rw [List.cons_append, EachOf, EachOf, ih, and_assoc]

/-! ### Frames around content -/

/-- A node around other nodes: it is no text, and something holds of it whatever its children
are. -/
def Around (p : NodeData → List Outline → Prop) (data : NodeData) : Prop :=
  data.text? = none ∧ ∀ children, p data children

/-- Nodes inside each other, the innermost of which is the hole. -/
inductive Frame (p : NodeData → List Outline → Prop) : Outline → Prop where
  | hole {data} : Around p data → Frame p (.node data true [])
  | around {data inner} : Around p data → Frame p inner → Frame p (.node data false [inner])

/-- What holds of a frame and of the content holds of the filled frame. -/
theorem Frame.each_fill {p : NodeData → List Outline → Prop} {outline : Outline}
    (h : outline.Frame p) {content : List Outline} (hc : EachOf p content) :
    (outline.fill content).Each p := by
  induction h with
  | hole hdata =>
    rw [fill, fillAll, if_pos rfl, List.nil_append, Each]
    exact ⟨hdata.2 content, hc⟩
  | around hdata _ ih =>
    rw [fill, fillAll, fillAll, if_neg Bool.false_ne_true, List.append_nil, Each, EachOf, EachOf]
    exact ⟨hdata.2 _, ih, trivial⟩

/-- A frame says what its content says. -/
theorem Frame.text_fill {p : NodeData → List Outline → Prop} {outline : Outline}
    (h : outline.Frame p) (content : List Outline) :
    (outline.fill content).text = texts content := by
  induction h with
  | hole hdata =>
    rw [fill, fillAll, if_pos rfl, List.nil_append, text, hdata.1, Option.getD_none,
      String.empty_append]
  | around hdata _ ih =>
    rw [fill, fillAll, fillAll, if_neg Bool.false_ne_true, List.append_nil, text, hdata.1,
      Option.getD_none, String.empty_append, texts, texts, ih, String.append_empty]

end Outline

namespace Tree

mutual

/-- The outline of a tree, in which one node may be the hole. -/
def outline (hole : Option NodeId) : Tree → Outline
  | .node id data children => .node data (decide (hole = some id)) (outlines hole children)
  | .absent _ => .node .document false []

/-- The outlines of trees. -/
def outlines (hole : Option NodeId) : List Tree → List Outline
  | [] => []
  | tree :: rest => outline hole tree :: outlines hole rest

end

theorem outlines_eq_map (hole : Option NodeId) (trees : List Tree) :
    outlines hole trees = trees.map (outline hole) := by
  induction trees with
  | nil => rw [outlines, List.map_nil]
  | cons tree rest ih => rw [outlines, ih, List.map_cons]

mutual

/-- Which nodes of a tree are holes is all that matters. -/
theorem outline_congr {hole other : Option NodeId} : (tree : Tree) →
    (∀ node ∈ tree.nodes, hole = some node.1 ↔ other = some node.1) →
    tree.outline hole = tree.outline other
  | .node id data children, h => by
    rw [nodes, List.forall_mem_cons] at h
    rw [outline, outline, outlines_congr children h.2, decide_eq_decide.mpr h.1]
  | .absent _, _ => rfl

theorem outlines_congr {hole other : Option NodeId} : (trees : List Tree) →
    (∀ node ∈ nodesOf trees, hole = some node.1 ↔ other = some node.1) →
    outlines hole trees = outlines other trees
  | [], _ => rfl
  | tree :: rest, h => by
    rw [nodesOf, List.forall_mem_append] at h
    rw [outlines, outlines, outline_congr tree h.1, outlines_congr rest h.2]

end

mutual

/-- The texts of a tree are those of its outline. -/
theorem text_outline (hole : Option NodeId) : (tree : Tree) →
    (tree.outline hole).text = tree.innerText
  | .node id data children => by
    rw [outline, Outline.text, texts_outlines hole children, innerText, nodes, List.filterMap_cons]
    cases data.text? with
    | none => rw [Option.getD_none, String.empty_append]
    | some text => rw [Option.getD_some, String.join_cons]
  | .absent _ => rfl

theorem texts_outlines (hole : Option NodeId) : (trees : List Tree) →
    Outline.texts (outlines hole trees) =
      String.join ((nodesOf trees).filterMap fun node => node.2.text?)
  | [] => rfl
  | tree :: rest => by
    rw [outlines, Outline.texts, text_outline hole tree, texts_outlines hole rest, innerText,
      nodesOf, List.filterMap_append, String.join_append]

end

mutual

/-- What holds in the outline of a tree holds in the tree. -/
theorem each_of_outline {p : NodeData → List Outline → Prop} {hole : Option NodeId} :
    (tree : Tree) → (tree.outline hole).Each p →
    tree.Each fun data children => p data (outlines hole children)
  | .node _ _ children, h => by
    rw [outline, Outline.Each] at h
    exact ⟨h.1, eachOf_of_outlines children h.2⟩
  | .absent _, _ => trivial

theorem eachOf_of_outlines {p : NodeData → List Outline → Prop} {hole : Option NodeId} :
    (trees : List Tree) → Outline.EachOf p (outlines hole trees) →
    EachOf (fun data children => p data (outlines hole children)) trees
  | [], _ => trivial
  | tree :: rest, h => by
    rw [outlines, Outline.EachOf] at h
    exact ⟨each_of_outline tree h.1, eachOf_of_outlines rest h.2⟩

end

end Tree

end RichDoc
