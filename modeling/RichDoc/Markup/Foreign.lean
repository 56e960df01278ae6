import RichDoc.Markup.Table

/-!
# Drawings and formulas

Inside a drawing or a formula all tags open elements of its name space, until a tag comes that only
ordinary content has. Some of their parts hold ordinary content again.
-/

namespace RichDoc.Markup

/-- The rules of a part of a page. -/
def partRule : Mode → Token → Constructing Outcome
  | .initial => initialRule
  | .beforeHtml => beforeHtmlRule
  | .beforeHead => beforeHeadRule
  | .inHead => inHeadRule
  | .afterHead => afterHeadRule
  | .inBody => inBodyRule
  | .text => textRule
  | .inTable => inTableRule
  | .inTableText => inTableTextRule
  | .inCaption => inCaptionRule
  | .inColumnGroup => inColumnGroupRule
  | .inTableBody => inTableBodyRule
  | .inRow => inRowRule
  | .inCell => inCellRule
  | .inTemplate => inTemplateRule
  | .afterBody => afterBodyRule
  | .inFrameset => inFramesetRule
  | .afterFrameset => afterFramesetRule
  | .afterAfterBody => afterAfterBodyRule
  | .afterAfterFrameset => afterAfterFramesetRule

/-- Whether the newest open element is not an HTML element. -/
def Construction.inForeign (c : Construction) : Bool :=
  c.opened.head?.any fun element => element.name.ns != .html

/-- Whether a token is read by the rules of drawings and formulas. -/
def Construction.readsForeign (c : Construction) (token : Token) : Bool :=
  match c.opened.head?, token with
  | none, _ => false
  | some _, .endOfText => false
  | some element, .char _ =>
    element.name.ns != .html && !isFormulaText element.name && !isDrawingText element.name
  | some element, .startTag tag =>
    let ordinary := (isFormulaText element.name && !(["mglyph", "malignmark"].contains tag.name)) ||
      isDrawingText element.name ||
      (element.name == ⟨.mathml, "annotation-xml"⟩ && tag.name == "svg")
    element.name.ns != .html && !ordinary
  | some element, _ => element.name.ns != .html

/-- Leave drawings and formulas, and read a token as ordinary content. -/
def leaveForeign (token : Token) : Constructing Outcome := do
  let holdsOrdinary (element : OpenElement) : Bool :=
    element.name.ns == .html || isFormulaText element.name || isDrawingText element.name
  modify fun c => { c with opened := c.opened.dropWhile fun element => !holdsOrdinary element }
  partRule (← get).mode token

/-- Whether a tag is only known in ordinary content. -/
def isOrdinaryOnly (tag : Tag) : Bool :=
  leavesForeign.contains tag.name ||
    (tag.name == "font" && tag.attrs.any fun attr => ["color", "face", "size"].contains attr.1)

/-- Find what an end tag ends in a drawing or formula: an element outside which it closes, none, or
it is read as ordinary content. -/
def endForeign (name : String) (opened : List OpenElement) : Constructing Outcome :=
  let rec look : List OpenElement → Constructing Outcome
    | [] => return .done
    | element :: rest => do
      if rest.isEmpty then return .done
      else if element.name.ns == .html then partRule (← get).mode (.endTag name)
      else if lowerText element.name.localName == name then
        modify fun c => { c with opened := rest }
        return .done
      else look rest
  look opened

/-- The rules of drawings and formulas. -/
def foreignRule (token : Token) : Constructing Outcome := do
  match token with
  | .char char =>
    if char = '\x00' then insertChar replacement
    else
      unless isGap char do forbidFrames
      insertChar char
    return .done
  | .comment text => insertComment text; return .done
  | .startTag tag =>
    if isOrdinaryOnly tag then leaveForeign token
    else
      match (← get).opened with
      | element :: _ => openForeign element.name.ns tag
      | [] => pure ()
      return .done
  | .endTag name =>
    if name = "br" || name = "p" then leaveForeign token
    else endForeign name (← get).opened
  | .doctype _ => return .done
  | .breach => return .done
  | .endOfText => return .done

end RichDoc.Markup
