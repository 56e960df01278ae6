import RichDoc.Dom.Tree

/-!
# Assembling a tree while markup is read

The operations with which a reader of markup builds its tree: text is merged with the text before
it, nodes can be placed before a sibling, and the children of a node can be moved to another one.
-/

namespace RichDoc

/-- What is put into a tree: a node that exists, or text. -/
inductive Insertion where
  | node (link : Link)
  | text (text : String)
  deriving DecidableEq, Repr

namespace Dom

/-- Put something at the end of a node. -/
def insert (dom : Dom) (parent : Link) : Insertion → Dom
  | .node link => dom.append parent link
  | .text text => dom.appendText parent text

/-- Put something at the end of the parent of `element`, or of `previous` when it has none. -/
def insertNear (dom : Dom) (element previous : Link) (item : Insertion) : Dom :=
  let parent := dom.parent element
  if parent.isSome then dom.insert parent item else dom.insert previous item

/-- Put something directly before a sibling. Text always becomes a node of its own. -/
def insertItemBefore (dom : Dom) (sibling : Link) : Insertion → Dom
  | .node link => dom.insertBefore sibling link
  | .text text =>
    let (id, dom) := dom.create (.text text)
    dom.insertBefore sibling (some id)

/-- Add a detached element with its attributes. -/
def createElement (dom : Dom) (name : QualName) (attrs : List Attribute) : NodeId × Dom :=
  let (id, dom) := dom.create (.element name [])
  (id, attrs.foldl (fun dom a => dom.setAttribute (some id) a.name a.value) dom)

/-- Add the attributes whose names the element does not have yet. -/
def addMissingAttributes (dom : Dom) (link : Link) (attrs : List Attribute) : Dom :=
  let present := (dom.attrs link).map Attribute.name
  let missing := attrs.filter fun a => !present.contains a.name
  missing.foldl (fun dom a => dom.setAttribute link a.name a.value) dom

/-- Move all children of a node, in order, to the end of another. -/
def moveChildren (dom : Dom) (source target : Link) : Dom :=
  (dom.children source).foldl (fun dom child => dom.append target (some child)) dom

end Dom

end RichDoc
