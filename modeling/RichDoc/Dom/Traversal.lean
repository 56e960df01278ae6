import RichDoc.Dom.Basic

/-!
# Walking a tree

A walk follows links that an ill-formed store could close into a circle, so each walk is bounded by
a number of steps that no walk along a forest can use up.
-/

namespace RichDoc.Dom

/-- The nodes along the links to the next sibling. A link to no cell ends the chain behind it. -/
def chain (dom : Dom) : Nat → Link → List NodeId
  | 0, _ => []
  | _ + 1, none => []
  | steps + 1, some id =>
    id :: chain dom steps ((dom.get? (some id)).bind (·.nextSibling))

/-- The children of a node, first to last. -/
def children (dom : Dom) (link : Link) : List NodeId :=
  dom.chain (dom.size + 1) ((dom.get? link).bind (·.firstChild))

/-- Visit the nodes of a stack: the top one, then its children in its place. -/
def walk (dom : Dom) : Nat → List NodeId → List NodeId
  | 0, _ => []
  | _ + 1, [] => []
  | steps + 1, id :: stack => id :: walk dom steps (dom.children (some id) ++ stack)

/-- A node and all nodes below it in document order: each node before its children. -/
def descendants (dom : Dom) (link : Link) : List NodeId :=
  match link with
  | none => []
  | some id => if id < dom.size then dom.walk (Nat.pow 2 (dom.size + 2)) [id] else []

/-- The elements with a tag at or below a node, in document order. -/
def findAllByTag (dom : Dom) (link : Link) (tag : String) : List NodeId :=
  (dom.descendants link).filter fun id => dom.tag? (some id) == some tag

/-- The first element with a tag at or below a node. -/
def findByTag (dom : Dom) (link : Link) (tag : String) : Option NodeId :=
  (dom.descendants link).find? fun id => dom.tag? (some id) == some tag

/-- The texts at or below a node, joined. -/
def innerText (dom : Dom) (link : Link) : String :=
  String.join ((dom.descendants link).filterMap fun id => dom.text? (some id))

end RichDoc.Dom
