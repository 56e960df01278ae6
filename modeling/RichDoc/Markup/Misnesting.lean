import RichDoc.Markup.Construction

/-!
# Formatting that ends in the wrong order

When formatting is ended inside a block that began in it, the block is taken out of the formatting
element: what is between the two is split, and the content of the block goes into a new element for
the same formatting. Ending formatting that no block interferes with closes its element.
-/

namespace RichDoc.Markup

/-- Close the newest element with a name, unless a special element is in the way. -/
def endOrdinary (name : String) : Constructing Unit := do
  let opened := (← get).opened
  let past := opened.dropWhile fun element =>
    !element.isOf [name] && !isSpecial element.name
  match past with
  | [] => pure ()
  | element :: _ =>
    if element.isOf [name] then
      closeImpliedBut name
      closeThrough (·.id == element.id)

/-- The entry of the newest formatting with a name, up to the newest marker. -/
def findFormatting (name : String) (formatting : List Formatting) : Option (NodeId × Tag) :=
  (formatting.takeWhile fun entry => !entry.isMarker).findSome? fun
    | .marker => none
    | .element id tag => if tag.name == name then some (id, tag) else none

/-- What is known while a block is taken out of its formatting. -/
structure Lifting where
  /-- What was moved last. -/
  moved : NodeId
  /-- The open elements between the formatting and the block that stay, oldest first. -/
  kept : List OpenElement
  /-- The entry before which the formatting is remembered anew, if not in its old place. -/
  bookmark : Option NodeId

/-- Split the elements between a block and its formatting, innermost first. The first three that are
remembered go on outside the block, the others end. -/
def splitBetween (block : NodeId) : Nat → Lifting → List OpenElement → Constructing Lifting
  | _, lifting, [] => pure lifting
  | steps, lifting, element :: outer => do
    let entry := (← get).formatting.find? (·.isFor element.id)
    match steps, entry with
    | steps + 1, some (.element _ tag) =>
      let copy ← createFor .html tag
      modify fun c =>
        { c with
          formatting := c.formatting.map fun entry =>
            if entry.isFor element.id then .element copy.id tag else entry
          dom := (c.dom.detach (some lifting.moved)).append (some copy.id) (some lifting.moved) }
      let bookmark := if lifting.moved = block then some copy.id else lifting.bookmark
      splitBetween block steps ⟨copy.id, copy :: lifting.kept, bookmark⟩ outer
    | _, _ =>
      forgetFormatting element.id
      splitBetween block (steps - 1) lifting outer

/-- Remember formatting by a new element: in the place of the old entry, or just after another. -/
def renewFormatting (old : NodeId) (entry : Formatting) (bookmark : Option NodeId)
    (formatting : List Formatting) : List Formatting :=
  match bookmark with
  | none => formatting.map fun other => if other.isFor old then entry else other
  | some after =>
    (formatting.flatMap fun other => if other.isFor after then [entry, other] else [other]).filter
      fun other => !other.isFor old

/-- Take a block out of a formatting element. The elements are open as
`below`, formatting, `between`, `block`, `newer`, all oldest first but `below`. -/
def liftBlock (id : NodeId) (tag : Tag) (below between : List OpenElement) (block : OpenElement)
    (newer : List OpenElement) : Constructing Unit := do
  let lifting ← splitBetween block.id 3 ⟨block.id, [], none⟩ between.reverse
  modify fun c => { c with dom := c.dom.detach (some lifting.moved) }
  modify fun c => c.putAt (c.placeIn below.head?) (.node (some lifting.moved))
  let renewed ← createFor .html tag
  modify fun c =>
    { c with
      dom := (c.dom.moveChildren (some block.id) (some renewed.id)).append (some block.id)
        (some renewed.id)
      formatting := renewFormatting id (.element renewed.id tag) lifting.bookmark c.formatting
      opened := (below.reverse ++ lifting.kept ++ block :: renewed :: newer).reverse }

/-- End the newest formatting with a name once. The result says whether there may be more. -/
def endFormattingOnce (name : String) : Constructing Bool := do
  let c ← get
  match findFormatting name c.formatting with
  | none =>
    endOrdinary name
    return false
  | some (id, tag) =>
    let newer := c.opened.takeWhile fun element => element.id != id
    match c.opened.drop newer.length with
    | [] =>
      forgetFormatting id
      return false
    | _ :: below =>
      if !Construction.findInScope .element (·.id == id) c.opened then return false
      let between := newer.reverse.takeWhile fun element => !isSpecial element.name
      match newer.reverse.drop between.length with
      | [] =>
        set { c with opened := below }
        forgetFormatting id
        return false
      | block :: newest =>
        liftBlock id tag below between block newest
        return true

/-- End formatting up to a number of times. -/
def endFormattingTimes (name : String) : Nat → Constructing Unit
  | 0 => pure ()
  | times + 1 => do
    if ← endFormattingOnce name then endFormattingTimes name times

/-- End formatting with a name. -/
def endFormatting (name : String) : Constructing Unit := do
  let c ← get
  match c.opened with
  | element :: _ =>
    if element.isOf [name] && !c.formatting.any (·.isFor element.id) then close
    else endFormattingTimes name 8
  | [] => pure ()

/-- End a link that is still open before another one. -/
def endOuterLink : Constructing Unit := do
  match findFormatting "a" (← get).formatting with
  | none => pure ()
  | some (id, _) =>
    endFormatting "a"
    forgetFormatting id
    removeOpen id

end RichDoc.Markup
