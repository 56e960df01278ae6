import RichDoc.Dom.Assembly
import RichDoc.Markup.Encoding

/-!
# A tree under construction

While markup is read, the elements that are still open form a stack, newest first, and new content
goes into the newest. Besides, the formatting elements that a text is in are remembered: when one is
closed too early by the end of another element, it is opened again before the next text. A marker
keeps formatting from reaching into a cell, a caption or an object.
-/

namespace RichDoc.Markup

/-- Which part of a page is being read. Each part has rules of its own. -/
inductive Mode where
  | initial
  | beforeHtml
  | beforeHead
  | inHead
  | afterHead
  | inBody
  | text
  | inTable
  | inTableText
  | inCaption
  | inColumnGroup
  | inTableBody
  | inRow
  | inCell
  | inTemplate
  | afterBody
  | inFrameset
  | afterFrameset
  | afterAfterBody
  | afterAfterFrameset
  deriving DecidableEq, Repr, Inhabited

/-- An element that is still open. -/
structure OpenElement where
  id : NodeId
  name : QualName
  deriving DecidableEq, Repr, Inhabited

/-- Whether an open element is an HTML element out of a list. -/
def OpenElement.isOf (names : List String) (element : OpenElement) : Bool :=
  isHtmlOf names element.name

/-- An entry of the remembered formatting. -/
inductive Formatting where
  | marker
  | element (id : NodeId) (tag : Tag)
  deriving DecidableEq, Repr, Inhabited

/-- Whether an entry is of an element. -/
def Formatting.isFor (id : NodeId) : Formatting → Bool
  | .marker => false
  | .element other _ => other == id

/-- Whether an entry is a marker. -/
def Formatting.isMarker : Formatting → Bool
  | .marker => true
  | .element _ _ => false

/-- A tree under construction. -/
structure Construction where
  dom : Dom
  mode : Mode
  /-- The part in which a text began. -/
  textOrigin : Mode
  /-- How the content of each open template is read, newest first. -/
  templateModes : List Mode
  /-- Characters between the parts of a table. -/
  tableText : List Char
  /-- The open elements, newest first. -/
  opened : List OpenElement
  /-- The remembered formatting, newest first. -/
  formatting : List Formatting
  head : Option OpenElement
  form : Option NodeId
  /-- Whether the body can still give way to frames. -/
  framesAllowed : Bool
  /-- Whether a line feed at this place is left out. -/
  dropsLineFeed : Bool
  /-- Whether a byte order mark at this place is left out. -/
  dropsMark : Bool
  /-- Whether content goes outside the table it stands in. -/
  fostering : Bool
  textMode : TextMode
  /-- Whether the page has no document type, so that a paragraph can hold a table. -/
  oldPage : Bool
  deriving Inhabited

/-- Work on a tree under construction. -/
abbrev Constructing := StateM Construction

/-- What a rule leaves to be done: nothing, or to read the same token in another part. -/
inductive Outcome where
  | done
  | again (mode : Mode)
  deriving DecidableEq, Repr, Inhabited

/-- A place for new content. -/
inductive Place where
  /-- At the end of a node. -/
  | inside (parent : NodeId)
  /-- Beside a table, or at the end of the element around it when it stands nowhere. -/
  | beside (table around : NodeId)
  deriving DecidableEq, Repr

namespace Construction

/-- The start of a construction. -/
def start : Construction where
  dom := .empty
  mode := .initial
  textOrigin := .initial
  templateModes := []
  tableText := []
  opened := []
  formatting := []
  head := none
  form := none
  framesAllowed := true
  dropsLineFeed := false
  dropsMark := true
  fostering := false
  textMode := .markup
  oldPage := false

/-- Whether the newest open element is an HTML element out of a list. -/
def currentIs (names : List String) (c : Construction) : Bool :=
  c.opened.head?.any (·.isOf names)

/-- Whether some open element is an HTML element out of a list. -/
def isOpen (names : List String) (c : Construction) : Bool := c.opened.any (·.isOf names)

/-- Look through open elements, newest first, up to one that ends the scope. -/
def findInScope (scope : Scope) (wanted : OpenElement → Bool) : List OpenElement → Bool
  | [] => false
  | element :: rest =>
    if wanted element then true
    else if scope.ends element.name then false
    else findInScope scope wanted rest

/-- Whether an HTML element out of a list is open and seen in a scope. -/
def inScope (scope : Scope) (names : List String) (c : Construction) : Bool :=
  findInScope scope (·.isOf names) c.opened

/-- The outermost open element. -/
def outermost (c : Construction) : Option OpenElement := c.opened.getLast?

/-- The body, if it is open. -/
def body (c : Construction) : Option OpenElement :=
  (c.opened.reverse[1]?).filter (·.isOf ["body"])

/-- Where content goes that belongs into an element. -/
def placeIn (c : Construction) (target : Option OpenElement) : Place :=
  let rec outside : List OpenElement → Place
    | [] => .inside ((c.outermost.map (·.id)).getD 0)
    | element :: rest =>
      if element.isOf ["template"] then .inside element.id
      else if element.isOf ["table"] then
        .beside element.id ((rest.head?.map (·.id)).getD 0)
      else outside rest
  match target with
  | none => .inside 0
  | some target =>
    if c.fostering && target.isOf tableParts then outside c.opened else .inside target.id

/-- Where new content goes. -/
def place (c : Construction) : Place := c.placeIn c.opened.head?

/-- Put something in its place. -/
def putAt (c : Construction) (place : Place) (item : Insertion) : Construction :=
  match place with
  | .inside parent => { c with dom := c.dom.insert (some parent) item }
  | .beside table around => { c with dom := c.dom.insertNear (some table) (some around) item }

/-- Which part is read when only the open elements are known. -/
def modeOfOpen (c : Construction) : Mode :=
  let rec find : List OpenElement → Mode
    | [] => .inBody
    | element :: rest =>
      if element.name.ns ≠ .html then find rest
      else
        match element.name.localName with
        | "td" => .inCell
        | "th" => .inCell
        | "tr" => .inRow
        | "tbody" => .inTableBody
        | "thead" => .inTableBody
        | "tfoot" => .inTableBody
        | "caption" => .inCaption
        | "colgroup" => .inColumnGroup
        | "table" => .inTable
        | "template" => c.templateModes.headD .inBody
        | "head" => .inHead
        | "body" => .inBody
        | "frameset" => .inFrameset
        | "html" => if c.head.isNone then .beforeHead else .afterHead
        | _ => find rest
  find c.opened

end Construction

/-- Go to a part. -/
def enter (mode : Mode) : Constructing Unit := modify fun c => { c with mode := mode }

/-- Go to the part that the open elements say. -/
def resume : Constructing Unit := modify fun c => { c with mode := c.modeOfOpen }

/-- Start to read anew behind a tag, as at the start of the text. -/
def restart : Constructing Unit := modify fun c => { c with dropsMark := true }

/-- Keep the body from giving way to frames. -/
def forbidFrames : Constructing Unit := modify fun c => { c with framesAllowed := false }

/-- Close the newest open element. -/
def close : Constructing Unit := modify fun c => { c with opened := c.opened.drop 1 }

/-- Close elements up to and with the newest that passes a test. -/
def closeThrough (last : OpenElement → Bool) : Constructing Unit := modify fun c =>
  { c with opened := (c.opened.dropWhile fun element => !last element).drop 1 }

/-- Close elements up to and with the newest out of a list. -/
def closeThroughOf (names : List String) : Constructing Unit := closeThrough (·.isOf names)

/-- Close elements until the newest is out of a list. -/
def closeTo (names : List String) : Constructing Unit := modify fun c =>
  { c with opened := c.opened.dropWhile fun element => !element.isOf names }

/-- Close the newest elements whose end tags may be left out. -/
def closeImplied (names : List String) : Constructing Unit := modify fun c =>
  { c with opened := c.opened.dropWhile fun element => element.isOf names }

/-- Close the newest elements whose end tags may be left out, but not the named one. -/
def closeImpliedBut (name : String) : Constructing Unit :=
  closeImplied (impliedEnds.filter (· != name))

/-- Take an element out of the open ones, wherever it is. -/
def removeOpen (id : NodeId) : Constructing Unit := modify fun c =>
  { c with opened := c.opened.filter fun element => element.id != id }

/-- Close the paragraph, with what in it may be left open. -/
def closeParagraph : Constructing Unit := do
  closeImpliedBut "p"
  closeThroughOf ["p"]

/-- Close the paragraph if one is open around this place. -/
def closeParagraphInScope : Constructing Unit := do
  if (← get).inScope .button ["p"] then closeParagraph

/-- The attributes of a tag as those of an element in a name space. -/
def Tag.attributesIn (tag : Tag) (ns : Namespace) : List Attribute :=
  tag.attrs.map fun attr => ⟨attributeName ns attr.1, attr.2⟩

/-- Create an element for a tag. It stays detached. -/
def createFor (ns : Namespace) (tag : Tag) : Constructing OpenElement := modifyGet fun c =>
  let name := elementName ns tag.name
  let (id, dom) := c.dom.createElement name (tag.attributesIn ns)
  (⟨id, name⟩, { c with dom := dom })

/-- Put an element for a tag where new content goes. -/
def insertFor (ns : Namespace) (tag : Tag) : Constructing OpenElement := do
  let element ← createFor ns tag
  modify fun c => c.putAt c.place (.node (some element.id))
  return element

/-- Put an element where new content goes and leave it open. -/
def openFor (tag : Tag) : Constructing OpenElement := do
  let element ← insertFor .html tag
  modify fun c => { c with opened := element :: c.opened }
  return element

/-- Open an element whose start tag was left out. -/
def openNamed (name : String) : Constructing OpenElement := openFor ⟨name, [], false⟩

/-- Put an element without content where new content goes. -/
def insertEmpty (tag : Tag) : Constructing Unit := do
  let _ ← insertFor .html tag

/-- Put an element of a drawing or a formula where new content goes. It stays open unless its tag
closes itself. -/
def openForeign (ns : Namespace) (tag : Tag) : Constructing Unit := do
  let element ← insertFor ns tag
  unless tag.selfClosing do
    modify fun c => { c with opened := element :: c.opened }

/-- Put a character where new content goes. -/
def insertChar (char : Char) : Constructing Unit :=
  modify fun c => c.putAt c.place (.text char.toString)

/-- Put a comment at a place. -/
def commentAt (place : Place) (text : String) : Constructing Unit := modify fun c =>
  let (id, dom) := c.dom.create (.comment text)
  { c with dom := dom }.putAt place (.node (some id))

/-- Put a comment where new content goes. -/
def insertComment (text : String) : Constructing Unit := do commentAt (← get).place text

/-- Put a comment at the end of the document. -/
def documentComment (text : String) : Constructing Unit := commentAt (.inside 0) text

/-- Put a comment at the end of the outermost element. -/
def pageComment (text : String) : Constructing Unit := do
  commentAt (.inside (((← get).outermost.map (·.id)).getD 0)) text

/-- Open an element whose content is text only, and come back after it. -/
def readText (mode : TextMode) (tag : Tag) : Constructing Unit := do
  let _ ← openFor tag
  modify fun c => { c with textOrigin := c.mode, mode := .text, textMode := mode }

/-- Set a marker. -/
def setMarker : Constructing Unit :=
  modify fun c => { c with formatting := .marker :: c.formatting }

/-- Forget the formatting up to and with the newest marker. -/
def forgetToMarker : Constructing Unit := modify fun c =>
  { c with formatting := (c.formatting.dropWhile fun entry => !entry.isMarker).drop 1 }

/-- Forget the formatting of an element. -/
def forgetFormatting (id : NodeId) : Constructing Unit := modify fun c =>
  { c with formatting := c.formatting.filter fun entry => !entry.isFor id }

/-- Open again the formatting that was closed, oldest first. -/
def reopenAll : List Tag → Constructing Unit
  | [] => pure ()
  | tag :: rest => do
    let element ← openFor tag
    modify fun c => { c with formatting := .element element.id tag :: c.formatting }
    reopenAll rest

/-- Open again the formatting that was closed since the newest entry that is still open. -/
def reopenFormatting : Constructing Unit := do
  let c ← get
  let isLost : Formatting → Bool
    | .marker => false
    | .element id _ => !c.opened.any (·.id == id)
  let lost := c.formatting.takeWhile isLost
  set { c with formatting := c.formatting.drop lost.length }
  reopenAll (lost.reverse.filterMap fun
    | .marker => none
    | .element _ tag => some tag)

/-- Whether two tags have one name and the same attributes in any order. -/
def Tag.sameAs (first second : Tag) : Bool :=
  first.name == second.name && first.attrs.length == second.attrs.length &&
    first.attrs.all second.attrs.contains

/-- Forget the oldest of three equal entries, so that equal formatting does not pile up. -/
def limitEqual (tag : Tag) (formatting : List Formatting) : List Formatting :=
  let recent := formatting.takeWhile fun entry => !entry.isMarker
  let equal := recent.filterMap fun
    | .marker => none
    | .element id other => if tag.sameAs other then some id else none
  if equal.length < 3 then formatting
  else
    match equal.getLast? with
    | some oldest => formatting.filter fun entry => !entry.isFor oldest
    | none => formatting

/-- Open a formatting element and remember it. -/
def openFormatting (tag : Tag) : Constructing Unit := do
  modify fun c => { c with formatting := limitEqual tag c.formatting }
  let element ← openFor tag
  modify fun c => { c with formatting := .element element.id tag :: c.formatting }

/-- Work with content going outside the table it stands in. -/
def fostered {α : Type} (work : Constructing α) : Constructing α := do
  modify fun c => { c with fostering := true }
  let result ← work
  modify fun c => { c with fostering := false }
  return result

end RichDoc.Markup
