import RichDoc.Dom.Traversal

/-!
# Trees as values

The tree below a node of a store, unfolded into a value: each node with its index, its payload and
its children in order. What only reads a tree is defined on this value. In the other direction a
tree is built into a store by creating each node, filling in its attributes, and then appending its
children one by one.
-/

namespace RichDoc

/-- A tree. A link to no cell is an `absent` node. -/
inductive Tree where
  | node (id : NodeId) (data : NodeData) (children : List Tree)
  | absent (link : Link)
  deriving Repr, Inhabited

namespace Tree

/-- Where a tree stands in its store. -/
def link : Tree → Link
  | .node id _ _ => some id
  | .absent link => link

/-- The payload of the root. -/
def data? : Tree → Option NodeData
  | .node _ data _ => some data
  | .absent _ => none

/-- Whether the root is a comment. -/
def isComment (tree : Tree) : Bool :=
  match tree.data? with
  | some data => data.isComment
  | none => false

/-- Whether the root is an element. -/
def isElement (tree : Tree) : Bool := (tree.data?.bind NodeData.name?).isSome

mutual

/-- The nodes of a tree that are there, in document order. -/
def nodes : Tree → List (NodeId × NodeData)
  | .node id data children => (id, data) :: nodesOf children
  | .absent _ => []

/-- The nodes of a list of trees. -/
def nodesOf : List Tree → List (NodeId × NodeData)
  | [] => []
  | tree :: rest => nodes tree ++ nodesOf rest

end

/-- The texts of a tree, joined in document order. -/
def innerText (tree : Tree) : String :=
  String.join (tree.nodes.filterMap fun node => node.2.text?)

end Tree

namespace Dom

/-- The tree below a link, down to a depth. -/
def treeTo (dom : Dom) : Nat → Link → Tree
  | 0, link => .absent link
  | depth + 1, link =>
    match link, dom.get? link with
    | some id, some cell =>
      .node id cell.data ((dom.children link).map fun child => treeTo dom depth (some child))
    | link, _ => .absent link

/-- The tree below a link. No path of a forest is longer than its store. -/
def tree (dom : Dom) (link : Link) : Tree := dom.treeTo (dom.size + 1) link

/-- The trees below the children of a node. -/
def childTrees (dom : Dom) (link : Link) : List Tree :=
  (dom.children link).map fun child => dom.tree (some child)

mutual

/-- Build a tree of new nodes. Its root stays detached; attributes are set in order. -/
def build (dom : Dom) : Tree → NodeId × Dom
  | .node _ (.element name attrs) children =>
    let (id, dom) := dom.create (.element name [])
    let dom := attrs.foldl (fun dom a => dom.setAttribute (some id) a.name a.value) dom
    (id, buildChildren dom id children)
  | .node _ data children =>
    let (id, dom) := dom.create data
    (id, buildChildren dom id children)
  | .absent _ => dom.create .document

/-- Build trees and append them to a node. -/
def buildChildren (dom : Dom) (parent : NodeId) : List Tree → Dom
  | [] => dom
  | tree :: rest =>
    let (id, dom) := build dom tree
    buildChildren (dom.append (some parent) (some id)) parent rest

end

end Dom

/-- A node in a store of its own, not yet part of any output. -/
structure Subtree where
  dom : Dom
  root : Link
  deriving Repr, Inhabited

namespace Subtree

/-- The tree below the root. -/
def tree (sub : Subtree) : Tree := sub.dom.tree sub.root

/-- The first element with a tag inside. -/
def findByTag (sub : Subtree) (tag : String) : Option NodeId := sub.dom.findByTag sub.root tag

end Subtree

end RichDoc
