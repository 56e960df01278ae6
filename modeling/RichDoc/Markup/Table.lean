import RichDoc.Markup.Body

/-!
# Tables

A table holds captions, columns, groups of rows, rows and cells. Their tags close what they cannot
stand in and open what they need around them. All other content of a table is fostered: it goes
beside the table.
-/

namespace RichDoc.Markup

/-- A larger part ends a group of rows when one of these is open. So a head that stands alone in a
template goes on. -/
def endableContext : List String := ["table", "tbody", "tfoot"]

/-- What may be missing around the rows of a group. -/
def rowGroupContext : List String := rowGroups ++ ["template", "html"]

/-- What may be missing around the cells of a row. -/
def rowContext : List String := ["tr", "template", "html"]

/-- What may be missing around the parts of a table. -/
def tableContext : List String := ["table", "template", "html"]

/-- Parts of a table that end what is smaller. -/
def largeParts : List String := ["caption", "col", "colgroup"] ++ rowGroups

/-- End tags that mean nothing in a table. -/
def strayEnds : List String := ["body", "caption", "col", "colgroup", "html"]

/-- Content that does not belong into a table. -/
def fosterToken (token : Token) : Constructing Outcome := fostered (inBodyRule token)

/-- Close elements until a place for a part of a table, and open the part. -/
def openPart (context : List String) (tag : Tag) (mode : Mode) : Constructing Outcome := do
  closeTo context
  let _ ← openFor tag
  enter mode
  return .done

/-- Open a part whose start tag was left out, and read the token in it. -/
def openMissingPart (context : List String) (name : String) (mode : Mode) :
    Constructing Outcome := do
  closeTo context
  let _ ← openNamed name
  return .again mode

/-- A character in a table: text is collected until it ends. -/
def tableChar (token : Token) : Constructing Outcome := do
  let c ← get
  if c.currentIs tableParts then
    set { c with textOrigin := c.mode }
    return .again .inTableText
  else fosterToken token

/-- Rules in a table. -/
def inTableRule (token : Token) : Constructing Outcome := do
  match token with
  | .char _ => tableChar token
  | .comment text => insertComment text; return .done
  | .startTag tag =>
    if tag.name = "caption" then
      closeTo tableContext
      setMarker
      openPart tableContext tag .inCaption
    else if tag.name = "colgroup" then openPart tableContext tag .inColumnGroup
    else if tag.name = "col" then openMissingPart tableContext "colgroup" .inColumnGroup
    else if rowGroups.contains tag.name then openPart tableContext tag .inTableBody
    else if tag.name = "tr" || tableCells.contains tag.name then
      openMissingPart tableContext "tbody" .inTableBody
    else if tag.name = "table" then
      if (← get).inScope .table ["table"] then
        closeThroughOf ["table"]
        return .again (← get).modeOfOpen
      else return .done
    else if ["style", "script", "template"].contains tag.name then
      headElement tag
      return .done
    else if tag.name = "input" && isHiddenInput tag then
      insertEmpty tag
      return .done
    else if tag.name = "form" then
      let c ← get
      if !c.isOpen ["template"] && c.form.isNone then
        let form ← insertFor .html tag
        modify fun c => { c with form := some form.id }
      return .done
    else fosterToken token
  | .endTag name =>
    if name = "table" then
      if (← get).inScope .table ["table"] then
        closeThroughOf ["table"]
        resume
      return .done
    else if (strayEnds ++ rowGroups ++ tableCells ++ ["tr"]).contains name then return .done
    else if name = "template" then endTemplate; return .done
    else fosterToken token
  | .doctype _ => return .done
  | .breach => return .done
  | .endOfText => endOfText

/-- Put characters where they belong: beside the table, unless they are all white space. -/
def placeTableText (chars : List Char) : Constructing Unit :=
  if chars.all isGap then chars.forM insertChar
  else fostered (chars.forM bodyChar)

/-- Rules in the text of a table. -/
def inTableTextRule : Token → Constructing Outcome
  | .char char => do
    unless char = '\x00' do modify fun c => { c with tableText := char :: c.tableText }
    return .done
  | _ => do
    let c ← get
    set { c with tableText := [] }
    placeTableText c.tableText.reverse
    return .again c.textOrigin

/-- Rules in a caption. -/
def inCaptionRule (token : Token) : Constructing Outcome := do
  let ended (outcome : Outcome) : Constructing Outcome := do
    if (← get).inScope .table ["caption"] then
      closeImplied impliedEnds
      closeThroughOf ["caption"]
      forgetToMarker
      enter .inTable
      return outcome
    else return .done
  match token with
  | .startTag tag =>
    if (largeParts ++ tableCells ++ ["tr"]).contains tag.name then ended (.again .inTable)
    else inBodyRule token
  | .endTag name =>
    if name = "caption" then ended .done
    else if name = "table" then ended (.again .inTable)
    else if (strayEnds ++ rowGroups ++ tableCells ++ ["tr"]).contains name then return .done
    else inBodyRule token
  | token => inBodyRule token

/-- Rules in a group of columns. -/
def inColumnGroupRule (token : Token) : Constructing Outcome := do
  let ended (outcome : Outcome) : Constructing Outcome := do
    if (← get).currentIs ["colgroup"] then
      close
      enter .inTable
      return outcome
    else return .done
  match token with
  | .char char =>
    if isGap char then insertChar char; return .done
    else ended (.again .inTable)
  | .comment text => insertComment text; return .done
  | .startTag tag =>
    if tag.name = "html" then extendPage tag; return .done
    else if tag.name = "col" then insertEmpty tag; return .done
    else if tag.name = "template" then headElement tag; return .done
    else ended (.again .inTable)
  | .endTag name =>
    if name = "colgroup" then ended .done
    else if name = "col" then return .done
    else if name = "template" then endTemplate; return .done
    else ended (.again .inTable)
  | .doctype _ => return .done
  | .breach => return .done
  | .endOfText => endOfText

/-- Rules in a group of rows. -/
def inTableBodyRule (token : Token) : Constructing Outcome := do
  let ended (outcome : Outcome) : Constructing Outcome := do
    closeTo rowGroupContext
    close
    enter .inTable
    return outcome
  let endedInTable : Constructing Outcome := do
    if (← get).inScope .table endableContext then ended (.again .inTable)
    else return .done
  match token with
  | .startTag tag =>
    if tag.name = "tr" then openPart rowGroupContext tag .inRow
    else if tableCells.contains tag.name then openMissingPart rowGroupContext "tr" .inRow
    else if largeParts.contains tag.name then endedInTable
    else inTableRule token
  | .endTag name =>
    if rowGroups.contains name then
      if (← get).inScope .table [name] then ended .done else return .done
    else if name = "table" then endedInTable
    else if (strayEnds ++ tableCells ++ ["tr"]).contains name then return .done
    else inTableRule token
  | token => inTableRule token

/-- Rules in a row. -/
def inRowRule (token : Token) : Constructing Outcome := do
  let ended (outcome : Outcome) : Constructing Outcome := do
    if (← get).inScope .table ["tr"] then
      closeTo rowContext
      close
      enter .inTableBody
      return outcome
    else return .done
  match token with
  | .startTag tag =>
    if tableCells.contains tag.name then
      let outcome ← openPart rowContext tag .inCell
      setMarker
      return outcome
    else if (largeParts ++ ["tr"]).contains tag.name then ended (.again .inTableBody)
    else inTableRule token
  | .endTag name =>
    if name = "tr" then ended .done
    else if name = "table" then ended (.again .inTableBody)
    else if rowGroups.contains name then
      if (← get).inScope .table [name] then ended (.again .inTableBody) else return .done
    else if (strayEnds ++ tableCells).contains name then return .done
    else inTableRule token
  | token => inTableRule token

/-- Rules in a cell. -/
def inCellRule (token : Token) : Constructing Outcome := do
  let ended (names : List String) (outcome : Outcome) : Constructing Outcome := do
    closeImplied impliedEnds
    closeThroughOf names
    forgetToMarker
    enter .inRow
    return outcome
  match token with
  | .startTag tag =>
    if (largeParts ++ tableCells ++ ["tr"]).contains tag.name then
      if (← get).inScope .table tableCells then ended tableCells (.again .inRow)
      else return .done
    else inBodyRule token
  | .endTag name =>
    if tableCells.contains name then
      if (← get).inScope .table [name] then ended [name] .done else return .done
    else if strayEnds.contains name then return .done
    else if name = "table" || name = "tr" || rowGroups.contains name then
      if (← get).inScope .table [name] then ended tableCells (.again .inRow)
      else return .done
    else inBodyRule token
  | token => inBodyRule token

end RichDoc.Markup
