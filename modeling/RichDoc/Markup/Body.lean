import RichDoc.Markup.Head
import RichDoc.Markup.Misnesting

/-!
# The body of a page

Tags are sorted into kinds, and each kind has one rule. A block closes an open paragraph; a
formatting element is remembered; an item closes the item before it. An end tag closes what it names
with everything in it, if that is seen from where it stands.
-/

namespace RichDoc.Markup

/-- Kinds of start tags. -/
inductive StartKind where
  | page
  | body
  | frames
  | headElement
  | block
  | heading
  | preformatted
  | form
  | listItem
  | definition
  | plain
  | button
  | link
  | formatting
  | unbroken
  | object
  | table
  | empty
  | input
  | detail
  | rule
  | image
  | textArea
  | sample
  | innerPage
  | rawText
  | select
  | option
  | optionGroup
  | rubyBase
  | rubyText
  | formula
  | drawing
  | misplaced
  | ordinary
  deriving DecidableEq, Repr

/-- The start tags of each kind. All others are ordinary. -/
def startKinds : List (StartKind × List String) :=
  [(.page, ["html"]), (.body, ["body"]), (.frames, ["frameset"]), (.headElement, headElements),
    (.block, ["address", "article", "aside", "blockquote", "center", "details", "dialog", "dir",
      "div", "dl", "fieldset", "figcaption", "figure", "footer", "header", "hgroup", "main",
      "menu", "nav", "ol", "p", "search", "section", "summary", "ul"]),
    (.heading, headings), (.preformatted, ["pre", "listing"]), (.form, ["form"]),
    (.listItem, ["li"]), (.definition, ["dd", "dt"]), (.plain, ["plaintext"]),
    (.button, ["button"]), (.link, ["a"]),
    (.formatting, ["b", "big", "code", "em", "font", "i", "s", "small", "strike", "strong", "tt",
      "u"]),
    (.unbroken, ["nobr"]), (.object, ["applet", "marquee", "object"]), (.table, ["table"]),
    (.empty, ["area", "br", "embed", "img", "keygen", "wbr"]), (.input, ["input"]),
    (.detail, ["param", "source", "track"]), (.rule, ["hr"]), (.image, ["image"]),
    (.textArea, ["textarea"]), (.sample, ["xmp"]), (.innerPage, ["iframe"]),
    (.rawText, ["noembed", "noscript"]), (.select, ["select"]), (.option, ["option"]),
    (.optionGroup, ["optgroup"]), (.rubyBase, ["rb", "rtc"]), (.rubyText, ["rp", "rt"]),
    (.formula, ["math"]), (.drawing, ["svg"]),
    (.misplaced, ["caption", "col", "colgroup", "frame", "head", "tbody", "td", "tfoot", "th",
      "thead", "tr"])]

/-- Kinds of end tags. -/
inductive EndKind where
  | page
  | body
  | template
  | block
  | form
  | paragraph
  | listItem
  | definition
  | heading
  | formatting
  | object
  | lineBreak
  | ordinary
  deriving DecidableEq, Repr

/-- The end tags of each kind. All others are ordinary. -/
def endKinds : List (EndKind × List String) :=
  [(.page, ["html"]), (.body, ["body"]), (.template, ["template"]),
    (.block, ["address", "article", "aside", "blockquote", "button", "center", "details", "dialog",
      "dir", "div", "dl", "fieldset", "figcaption", "figure", "footer", "header", "hgroup",
      "listing", "main", "menu", "nav", "ol", "pre", "search", "section", "select", "summary",
      "ul"]),
    (.form, ["form"]), (.paragraph, ["p"]), (.listItem, ["li"]), (.definition, ["dd", "dt"]),
    (.heading, headings),
    (.formatting, ["a", "b", "big", "code", "em", "font", "i", "nobr", "s", "small", "strike",
      "strong", "tt", "u"]),
    (.object, ["applet", "marquee", "object"]), (.lineBreak, ["br"])]

/-- The kind a table gives to a name. -/
def kindIn {κ : Type} (table : List (κ × List String)) (ordinary : κ) (name : String) : κ :=
  ((table.find? fun row => row.2.contains name).map Prod.fst).getD ordinary

/-- A character of the body. A null is left out. -/
def bodyChar (char : Char) : Constructing Unit := do
  unless char = '\x00' do
    reopenFormatting
    unless isGap char do forbidFrames
    insertChar char

/-- Give the body what a second tag says. -/
def extendBody (tag : Tag) : Constructing Unit := modify fun c =>
  match c.body with
  | none => c
  | some body =>
    if c.isOpen ["template"] then c
    else
      { c with
        framesAllowed := false
        dom := c.dom.addMissingAttributes (some body.id) (tag.attributesIn .html) }

/-- Let the body give way to frames. -/
def replaceBody (tag : Tag) : Constructing Unit := do
  let c ← get
  match c.body with
  | none => pure ()
  | some body =>
    if c.framesAllowed then
      set { c with
        dom := c.dom.detach (some body.id)
        opened := c.outermost.toList }
      let _ ← openFor tag
      enter .inFrameset

/-- Close the item that an item of some kind ends. -/
def closeItem (names : List String) : Constructing Unit := do
  let stops (element : OpenElement) : Bool :=
    isSpecial element.name && !element.isOf ["address", "div", "p"]
  let past := (← get).opened.dropWhile fun element => !element.isOf names && !stops element
  match past with
  | [] => pure ()
  | element :: _ =>
    if element.isOf names then
      closeImpliedBut element.name.localName
      closeThroughOf [element.name.localName]

/-- Whether a tag is of an input that is not shown. -/
def isHiddenInput (tag : Tag) : Bool :=
  tag.attrs.any fun attr => attr.1 == "type" && lowerText attr.2 == "hidden"

/-- An element without content in a text. -/
def emptyElement (tag : Tag) : Constructing Unit := do
  reopenFormatting
  insertEmpty tag

/-- An element that stays open in a text. -/
def ordinaryElement (tag : Tag) : Constructing Unit := do
  reopenFormatting
  let _ ← openFor tag

/-- An element that closes an open paragraph. -/
def blockElement (tag : Tag) : Constructing Unit := do
  closeParagraphInScope
  let _ ← openFor tag

/-- An element inside annotated text, closing what may be left open before it. -/
def rubyElement (tag : Tag) (implied : List String) : Constructing Unit := do
  if (← get).inScope .element ["ruby"] then closeImplied implied
  let _ ← openFor tag

/-- The start of a form. Forms are not nested. -/
def formElement (tag : Tag) : Constructing Unit := do
  let inTemplate := (← get).isOpen ["template"]
  if (← get).form.isNone || inTemplate then
    closeParagraphInScope
    let form ← openFor tag
    unless inTemplate do modify fun c => { c with form := some form.id }

/-- An element of a choice list. -/
def choiceElement (tag : Tag) (implied : List String) : Constructing Unit := do
  let c ← get
  if c.inScope .element ["select"] then closeImplied implied
  else if c.currentIs ["option"] then close
  ordinaryElement tag

/-- The rule for a start tag. -/
def bodyStartTag (tag : Tag) : Constructing Unit := do
  match kindIn startKinds .ordinary tag.name with
  | .page => extendPage tag
  | .body => extendBody tag
  | .frames => replaceBody tag
  | .headElement => headElement tag
  | .block => blockElement tag
  | .heading =>
    closeParagraphInScope
    if (← get).currentIs headings then close
    let _ ← openFor tag
  | .preformatted =>
    blockElement tag
    modify fun c => { c with dropsLineFeed := true, framesAllowed := false }
  | .form => formElement tag
  | .listItem =>
    forbidFrames
    closeItem ["li"]
    blockElement tag
  | .definition =>
    forbidFrames
    closeItem ["dd", "dt"]
    blockElement tag
  | .plain =>
    blockElement tag
    modify fun c => { c with textMode := .plain }
  | .button =>
    if (← get).inScope .element ["button"] then
      closeImplied impliedEnds
      closeThroughOf ["button"]
    ordinaryElement tag
    forbidFrames
  | .link =>
    endOuterLink
    reopenFormatting
    openFormatting tag
  | .formatting =>
    reopenFormatting
    openFormatting tag
  | .unbroken =>
    reopenFormatting
    if (← get).inScope .element ["nobr"] then
      endFormatting "nobr"
      reopenFormatting
    openFormatting tag
  | .object =>
    ordinaryElement tag
    setMarker
    forbidFrames
  | .table =>
    unless (← get).oldPage do closeParagraphInScope
    let _ ← openFor tag
    forbidFrames
    enter .inTable
  | .empty =>
    emptyElement tag
    forbidFrames
  | .input =>
    if (← get).inScope .element ["select"] then closeThroughOf ["select"]
    emptyElement tag
    unless isHiddenInput tag do forbidFrames
  | .detail => insertEmpty tag
  | .rule =>
    closeParagraphInScope
    if (← get).inScope .element ["select"] then closeImplied impliedEnds
    insertEmpty tag
    forbidFrames
  | .image =>
    emptyElement { tag with name := "img" }
    forbidFrames
  | .textArea =>
    modify fun c => { c with dropsLineFeed := true, framesAllowed := false }
    readText (.escapable "textarea") tag
  | .sample =>
    closeParagraphInScope
    reopenFormatting
    forbidFrames
    readText (.raw "xmp") tag
  | .innerPage =>
    forbidFrames
    readText (.raw "iframe") tag
  | .rawText => readText (.raw tag.name) tag
  | .select =>
    if (← get).inScope .element ["select"] then closeThroughOf ["select"]
    else
      ordinaryElement tag
      forbidFrames
  | .option => choiceElement tag (impliedEnds.filter (· != "optgroup"))
  | .optionGroup => choiceElement tag impliedEnds
  | .rubyBase => rubyElement tag impliedEnds
  | .rubyText => rubyElement tag (impliedEnds.filter (· != "rtc"))
  | .formula => openForeign .mathml tag
  | .drawing => openForeign .svg tag
  | .misplaced => pure ()
  | .ordinary => ordinaryElement tag

/-- Close the newest element with a name and what is in it, if it is seen in a scope. -/
def endBlock (scope : Scope) (implied : List String) (name : String) : Constructing Unit := do
  if (← get).inScope scope [name] then
    closeImplied implied
    closeThroughOf [name]

/-- The end tag of a form. -/
def endForm : Constructing Unit := do
  let c ← get
  if c.isOpen ["template"] then endBlock .element impliedEnds "form"
  else
    set { c with form := none }
    match c.form with
    | none => pure ()
    | some form =>
      if Construction.findInScope .element (·.id == form) c.opened then
        closeImplied impliedEnds
        removeOpen form

/-- The rule for an end tag. -/
def bodyEndTag (name : String) : Constructing Outcome := do
  match kindIn endKinds .ordinary name with
  | .page =>
    if (← get).inScope .element ["body"] then return .again .afterBody
  | .body =>
    if (← get).inScope .element ["body"] then enter .afterBody
  | .template => endTemplate
  | .block => endBlock .element impliedEnds name
  | .form => endForm
  | .paragraph =>
    unless (← get).inScope .button ["p"] do
      let _ ← openNamed "p"
    closeParagraph
  | .listItem => endBlock .listItem (impliedEnds.filter (· != name)) name
  | .definition => endBlock .element (impliedEnds.filter (· != name)) name
  | .heading =>
    if (← get).inScope .element headings then
      closeImplied impliedEnds
      closeThroughOf headings
  | .formatting => endFormatting name
  | .object =>
    if (← get).inScope .element [name] then
      closeImplied impliedEnds
      closeThroughOf [name]
      forgetToMarker
  | .lineBreak =>
    emptyElement ⟨"br", [], false⟩
    forbidFrames
  | .ordinary => endOrdinary name
  return .done

/-- The end of the text closes the templates that are open. -/
def endOfText : Constructing Outcome := do
  let c ← get
  if c.templateModes.isEmpty || !c.isOpen ["template"] then return .done
  closeTemplate
  return .again (← get).mode

/-- Rules in the body. -/
def inBodyRule : Token → Constructing Outcome
  | .char char => do bodyChar char; return .done
  | .comment text => do insertComment text; return .done
  | .startTag tag => do bodyStartTag tag; return .done
  | .endTag name => bodyEndTag name
  | .doctype _ => return .done
  | .breach => return .done
  | .endOfText => endOfText

/-- Rules in an element that holds text only. -/
def textRule : Token → Constructing Outcome
  | .char char => do insertChar char; return .done
  | .endTag name => do
    close
    modify fun c => { c with mode := c.textOrigin, textMode := .markup }
    if name = "script" then restart
    return .done
  | .endOfText => do
    close
    return .again (← get).textOrigin
  | _ => return .done

/-- Rules in a template. The first tag decides how its content is read. -/
def inTemplateRule (token : Token) : Constructing Outcome := do
  let readAs (mode : Mode) : Constructing Outcome := do
    modify fun c => { c with templateModes := mode :: c.templateModes.drop 1 }
    return .again mode
  match token with
  | .startTag tag =>
    if headElements.contains tag.name then headElement tag; return .done
    else if tag.name = "caption" || tag.name = "colgroup" || rowGroups.contains tag.name then
      readAs .inTable
    else if tag.name = "col" then readAs .inColumnGroup
    else if tag.name = "tr" then readAs .inTableBody
    else if tableCells.contains tag.name then readAs .inRow
    else readAs .inBody
  | .endTag name =>
    if name = "template" then endTemplate
    return .done
  | token => inBodyRule token

/-- Rules after the body. What does not belong there goes into the body. -/
def afterBodyRule (token : Token) : Constructing Outcome := do
  match token with
  | .char char =>
    if isGap char then inBodyRule token else return .again .inBody
  | .comment text => pageComment text; return .done
  | .startTag tag =>
    if tag.name = "html" then extendPage tag; return .done
    else return .again .inBody
  | .endTag name =>
    if name = "html" then enter .afterAfterBody; return .done
    else return .again .inBody
  | _ => return .done

/-- Rules after the page. -/
def afterAfterBodyRule (token : Token) : Constructing Outcome := do
  match token with
  | .char char =>
    if isGap char then inBodyRule token else return .again .inBody
  | .comment text => documentComment text; return .done
  | .startTag tag =>
    if tag.name = "html" then extendPage tag; return .done
    else return .again .inBody
  | .endTag _ => return .again .inBody
  | _ => return .done

/-- Rules in frames. -/
def inFramesetRule (token : Token) : Constructing Outcome := do
  match token with
  | .char char => if isGap char then insertChar char
  | .comment text => insertComment text
  | .startTag tag =>
    if tag.name = "html" then extendPage tag
    else if tag.name = "frameset" then
      let _ ← openFor tag
    else if tag.name = "frame" then insertEmpty tag
    else if tag.name = "noframes" then headElement tag
  | .endTag name =>
    if name = "frameset" && (← get).opened.length != 1 then
      close
      unless (← get).currentIs ["frameset"] do enter .afterFrameset
  | _ => pure ()
  return .done

/-- Rules after frames. -/
def afterFramesetRule (token : Token) : Constructing Outcome := do
  match token with
  | .char char => if isGap char then insertChar char
  | .comment text => insertComment text
  | .startTag tag =>
    if tag.name = "html" then extendPage tag
    else if tag.name = "noframes" then headElement tag
  | .endTag name => if name = "html" then enter .afterAfterFrameset
  | _ => pure ()
  return .done

/-- Rules after a page of frames. -/
def afterAfterFramesetRule (token : Token) : Constructing Outcome := do
  match token with
  | .char char => if isGap char then bodyChar char
  | .comment text => documentComment text
  | .startTag tag =>
    if tag.name = "html" then extendPage tag
    else if tag.name = "noframes" then headElement tag
  | _ => pure ()
  return .done

end RichDoc.Markup
