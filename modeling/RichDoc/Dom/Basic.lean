/-!
# Output trees in a store of linked cells

Every node is a cell of one array and is named by its index. A cell holds its payload and five
links: its parent, its first and last child, and the siblings on both sides. Cells are never freed;
detaching only unlinks. An operation that is given a link to no cell skips what it would have
written there, so each operation is defined for all links.
-/

namespace RichDoc

/-- The index of a node in its store. -/
abbrev NodeId := Nat

/-- A node, or none. -/
abbrev Link := Option NodeId

/-- The index that stands for no node where one is shown. -/
def noNodeNumber : Nat := 0xffffffff

/-- The form of a link in diagnostics. -/
def linkText (link : Link) : String := "DomId(" ++ toString (link.getD noNodeNumber) ++ ")"

/-- The name spaces of element and attribute names. -/
inductive Namespace where
  | unqualified
  | html
  | svg
  | mathml
  | xlink
  | xml
  | xmlns
  deriving DecidableEq, Repr, Inhabited

/-- A local name in a name space. -/
structure QualName where
  ns : Namespace
  localName : String
  deriving DecidableEq, Repr, Inhabited

/-- A name of an HTML element. -/
def QualName.html (localName : String) : QualName := ⟨.html, localName⟩

/-- An attribute of an element. -/
structure Attribute where
  name : QualName
  value : String
  deriving DecidableEq, Repr, Inhabited

/-- The payload of a node. A document is the root of a tree, or a detached container. -/
inductive NodeData where
  | document
  | element (name : QualName) (attrs : List Attribute)
  | text (text : String)
  | comment (text : String)
  deriving DecidableEq, Repr, Inhabited

namespace NodeData

/-- The name of an element. -/
def name? : NodeData → Option QualName
  | .element name _ => some name
  | _ => none

/-- The attributes of an element, none for other nodes. -/
def attrs : NodeData → List Attribute
  | .element _ attrs => attrs
  | _ => []

/-- The text of a text node. -/
def text? : NodeData → Option String
  | .text t => some t
  | _ => none

/-- Whether a node is a comment. -/
def isComment : NodeData → Bool
  | .comment _ => true
  | _ => false

end NodeData

/-- A payload with its links. -/
structure Cell where
  data : NodeData
  parent : Link
  firstChild : Link
  lastChild : Link
  prevSibling : Link
  nextSibling : Link
  deriving DecidableEq, Repr, Inhabited

/-- A cell without links. -/
def Cell.detached (data : NodeData) : Cell := ⟨data, none, none, none, none, none⟩

/-- A store of cells. -/
structure Dom where
  cells : Array Cell
  deriving DecidableEq, Repr, Inhabited

namespace Dom

/-- The store that holds one document node. -/
def empty : Dom := ⟨#[.detached .document]⟩

/-- The first node. -/
def root : Link := some 0

/-- The number of nodes, attached or not. -/
def size (dom : Dom) : Nat := dom.cells.size

/-- The cell behind a link. -/
def get? (dom : Dom) (link : Link) : Option Cell := link.bind fun id => dom.cells[id]?

/-- Change the cell behind a link, if there is one. -/
def modify (dom : Dom) (link : Link) (change : Cell → Cell) : Dom :=
  match link with
  | none => dom
  | some id => ⟨dom.cells.modify id change⟩

/-- Add a detached node. -/
def create (dom : Dom) (data : NodeData) : NodeId × Dom :=
  (dom.size, ⟨dom.cells.push (.detached data)⟩)

/-- Give an attribute a value. An attribute that is present keeps its place. -/
def putAttribute (attrs : List Attribute) (name : QualName) (value : String) : List Attribute :=
  match attrs with
  | [] => [⟨name, value⟩]
  | a :: rest =>
    if a.name = name then ⟨name, value⟩ :: rest else a :: putAttribute rest name value

/-- Set an attribute of an element; nothing happens to other nodes. -/
def setAttribute (dom : Dom) (link : Link) (name : QualName) (value : String) : Dom :=
  dom.modify link fun cell =>
    match cell.data with
    | .element tag attrs => { cell with data := .element tag (putAttribute attrs name value) }
    | _ => cell

/-- The last child of a node. -/
def lastChild (dom : Dom) (link : Link) : Link := (dom.get? link).bind (·.lastChild)

/-- The parent of a node. -/
def parent (dom : Dom) (link : Link) : Link := (dom.get? link).bind (·.parent)

/-- Unlink a node from its parent and its siblings. Its children stay with it. -/
def detach (dom : Dom) (link : Link) : Dom :=
  match dom.get? link with
  | none => dom
  | some cell =>
    let dom :=
      if cell.prevSibling.isSome then
        dom.modify cell.prevSibling fun c => { c with nextSibling := cell.nextSibling }
      else dom.modify cell.parent fun c => { c with firstChild := cell.nextSibling }
    let dom :=
      if cell.nextSibling.isSome then
        dom.modify cell.nextSibling fun c => { c with prevSibling := cell.prevSibling }
      else dom.modify cell.parent fun c => { c with lastChild := cell.prevSibling }
    dom.modify link fun c => { c with parent := none, prevSibling := none, nextSibling := none }

/-- Unlink a node that has a parent. -/
def detachAttached (dom : Dom) (link : Link) : Dom :=
  if (dom.parent link).isSome then dom.detach link else dom

/-- Make a node the last child of another. It is unlinked from an earlier parent first. -/
def append (dom : Dom) (parent child : Link) : Dom :=
  let dom := dom.detachAttached child
  let last := dom.lastChild parent
  let dom := dom.modify child fun c =>
    { c with parent := parent, prevSibling := last, nextSibling := none }
  let dom := dom.modify last fun c => { c with nextSibling := child }
  dom.modify parent fun c =>
    { c with firstChild := if c.firstChild.isNone then child else c.firstChild, lastChild := child }

/-- Put a node directly before a sibling. It is unlinked from an earlier parent first. -/
def insertBefore (dom : Dom) (sibling node : Link) : Dom :=
  let dom := dom.detachAttached node
  match dom.get? sibling with
  | none => dom
  | some place =>
    let dom := dom.modify node fun c =>
      { c with parent := place.parent, prevSibling := place.prevSibling, nextSibling := sibling }
    let dom := dom.modify sibling fun c => { c with prevSibling := node }
    if place.prevSibling.isSome then
      dom.modify place.prevSibling fun c => { c with nextSibling := node }
    else dom.modify place.parent fun c => { c with firstChild := node }

/-- Add text at the end of a node: to its last child when that is a text, else as a new child. -/
def appendText (dom : Dom) (parent : Link) (text : String) : Dom :=
  let last := dom.lastChild parent
  match (dom.get? last).bind fun cell => cell.data.text? with
  | some old => dom.modify last fun c => { c with data := .text (old ++ text) }
  | none =>
    let (id, dom) := dom.create (.text text)
    dom.append parent (some id)

/-- The payload of a node. -/
def data? (dom : Dom) (link : Link) : Option NodeData := (dom.get? link).map (·.data)

/-- The tag of an element. -/
def tag? (dom : Dom) (link : Link) : Option String :=
  ((dom.data? link).bind NodeData.name?).map QualName.localName

/-- The attributes of an element, none for other nodes. -/
def attrs (dom : Dom) (link : Link) : List Attribute :=
  match dom.data? link with
  | some data => data.attrs
  | none => []

/-- The value of the first attribute with a local name. -/
def attr? (dom : Dom) (link : Link) (localName : String) : Option String :=
  ((dom.attrs link).find? fun a => a.name.localName == localName).map Attribute.value

/-- The text of a text node. -/
def text? (dom : Dom) (link : Link) : Option String := (dom.data? link).bind NodeData.text?

/-- Whether a node is an element. -/
def isElement (dom : Dom) (link : Link) : Bool := (dom.tag? link).isSome

/-- Whether a node is a text. -/
def isText (dom : Dom) (link : Link) : Bool := (dom.text? link).isSome

end Dom

end RichDoc
