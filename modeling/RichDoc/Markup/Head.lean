import RichDoc.Markup.Construction

/-!
# The beginning of a page

What comes before the body: the outermost element, the head and its content. Each of them is there
even if its tags are left out.
-/

namespace RichDoc.Markup

/-- Open the outermost element. -/
def openPage (tag : Tag) : Constructing Unit := do
  let page ← createFor .html tag
  modify fun c =>
    { c with dom := c.dom.append Dom.root (some page.id), opened := page :: c.opened }

/-- Add what a second tag says to the outermost element. -/
def extendPage (tag : Tag) : Constructing Unit := modify fun c =>
  if c.isOpen ["template"] then c
  else
    { c with
      dom := c.dom.addMissingAttributes (c.outermost.map (·.id)) (tag.attributesIn .html) }

/-- Whether a template is for a tree that shadows its parent. -/
def Tag.wantsShadow (tag : Tag) : Bool :=
  (tag.attribute? "shadowrootmode").any ["open", "closed"].contains

/-- Start a template. No element of a page has a shadow: a template for one is made and given up,
and made anew as an ordinary one. -/
def openTemplate (tag : Tag) : Constructing Unit := do
  setMarker
  forbidFrames
  modify fun c => { c with mode := .inTemplate, templateModes := .inTemplate :: c.templateModes }
  if tag.wantsShadow then
    let _ ← createFor .html tag
  let _ ← openFor tag

/-- Close the newest template and go on around it. -/
def closeTemplate : Constructing Unit := do
  closeThroughOf ["template"]
  forgetToMarker
  modify fun c => { c with templateModes := c.templateModes.drop 1 }
  resume

/-- The end tag of a template. -/
def endTemplate : Constructing Unit := do
  if (← get).isOpen ["template"] then
    closeImplied impliedEndsInTemplate
    closeTemplate

/-- A tag of an element of the head. -/
def headElement (tag : Tag) : Constructing Unit :=
  if ["base", "basefont", "bgsound", "link", "meta"].contains tag.name then do
    insertEmpty tag
    if tag.namesEncoding then restart
  else if tag.name = "title" then readText (.escapable "title") tag
  else if tag.name = "template" then openTemplate tag
  else readText (.raw tag.name) tag

/-- End tags that stand for the missing tags before the body. -/
def endsBeginning (name : String) : Bool := ["head", "body", "html", "br"].contains name

/-- Rules before everything else. -/
def initialRule (token : Token) : Constructing Outcome := do
  let missing : Constructing Outcome := do
    modify fun c => { c with oldPage := true }
    return .again .beforeHtml
  match token with
  | .char c => if isGap c then return .done else missing
  | .comment text => documentComment text; return .done
  | _ => missing

/-- Rules before the outermost element. -/
def beforeHtmlRule (token : Token) : Constructing Outcome := do
  let missing : Constructing Outcome := do
    openPage ⟨"html", [], false⟩
    return .again .beforeHead
  match token with
  | .char c => if isGap c then return .done else missing
  | .comment text => documentComment text; return .done
  | .startTag tag =>
    if tag.name = "html" then
      openPage tag
      enter .beforeHead
      return .done
    else missing
  | .endTag name => if endsBeginning name then missing else return .done
  | _ => missing

/-- Open the head. -/
def openHead (tag : Tag) : Constructing Unit := do
  let head ← openFor tag
  modify fun c => { c with head := some head }

/-- Rules before the head. -/
def beforeHeadRule (token : Token) : Constructing Outcome := do
  let missing : Constructing Outcome := do
    openHead ⟨"head", [], false⟩
    return .again .inHead
  match token with
  | .char c => if isGap c then return .done else missing
  | .comment text => insertComment text; return .done
  | .startTag tag =>
    if tag.name = "html" then extendPage tag; return .done
    else if tag.name = "head" then
      openHead tag
      enter .inHead
      return .done
    else missing
  | .endTag name => if endsBeginning name then missing else return .done
  | _ => missing

/-- Rules in the head. -/
def inHeadRule (token : Token) : Constructing Outcome := do
  let ended : Constructing Outcome := do close; return .again .afterHead
  match token with
  | .char c =>
    if isGap c then insertChar c; return .done
    else ended
  | .comment text => insertComment text; return .done
  | .startTag tag =>
    if tag.name = "html" then extendPage tag; return .done
    else if headElements.contains tag.name || tag.name = "noscript" then
      headElement tag
      return .done
    else if tag.name = "head" then return .done
    else ended
  | .endTag name =>
    if name = "head" then
      close
      enter .afterHead
      return .done
    else if name = "template" then endTemplate; return .done
    else if endsBeginning name then ended
    else return .done
  | _ => ended

/-- Put an element into the head although that is closed. -/
def lateHeadElement (tag : Tag) : Constructing Unit := do
  match (← get).head with
  | none => headElement tag
  | some head =>
    modify fun c => { c with opened := head :: c.opened }
    headElement tag
    removeOpen head.id

/-- Rules between the head and the body. -/
def afterHeadRule (token : Token) : Constructing Outcome := do
  let missing : Constructing Outcome := do
    let _ ← openNamed "body"
    return .again .inBody
  match token with
  | .char c =>
    if isGap c then insertChar c; return .done
    else missing
  | .comment text => insertComment text; return .done
  | .startTag tag =>
    if tag.name = "html" then extendPage tag; return .done
    else if tag.name = "body" then
      let _ ← openFor tag
      forbidFrames
      enter .inBody
      return .done
    else if tag.name = "frameset" then
      let _ ← openFor tag
      enter .inFrameset
      return .done
    else if headElements.contains tag.name then lateHeadElement tag; return .done
    else if tag.name = "head" then return .done
    else missing
  | .endTag name =>
    if name = "template" then endTemplate; return .done
    else if endsBeginning name && name != "head" then missing
    else return .done
  | _ => missing

end RichDoc.Markup
