import RichDoc.Build.Basic
import RichDoc.Dom.Tree

/-!
# Grafting

A tree that exists is copied into what is being built. Comments are left out with everything below
them; a document, and a comment at the root, become containers. The copy of one marked node is
reported.
-/

namespace RichDoc

variable {σ η : Type} [TreeBuilder σ η]

/-- Set attributes in order. -/
def buildAttributes (s : σ) (node : η) (attrs : List Attribute) : σ :=
  attrs.foldl (fun s a => TreeBuilder.setAttribute s node a.name.localName a.value) s

/-- Create the copy of a node without its children. -/
def graftRoot (s : σ) : Option NodeData → η × σ
  | some (.element name attrs) =>
    let (node, s) := TreeBuilder.createElement s name.localName
    (node, buildAttributes s node attrs)
  | some (.text text) => TreeBuilder.createText s text
  | some .document => TreeBuilder.createFragment s
  | some (.comment _) => TreeBuilder.createFragment s
  | none => TreeBuilder.createFragment s

/-- The later of two reported copies. -/
def laterMark (first second : Option η) : Option η := second.or first

mutual

/-- Copy a tree. The result is the copy of its root, and the copy of the marked node if that is
copied. -/
def graft (s : σ) (mark : Option Link) : Tree → (η × Option η) × σ
  | .node id data children =>
    let (copy, s) := graftRoot s (some data)
    let here := if mark = some (some id) then some copy else none
    let (below, s) := graftChildren s mark copy children
    ((copy, laterMark here below), s)
  | .absent link =>
    let (copy, s) := graftRoot s none
    ((copy, if mark = some link then some copy else none), s)

/-- Copy trees that are not comments and append them to a node. -/
def graftChildren (s : σ) (mark : Option Link) (parent : η) : List Tree → Option η × σ
  | [] => (none, s)
  | tree :: rest =>
    if tree.isComment then graftChildren s mark parent rest
    else
      let ((copy, here), s) := graft s mark tree
      let s := TreeBuilder.appendChild s parent copy
      let (below, s) := graftChildren s mark parent rest
      (laterMark here below, s)

end

end RichDoc
