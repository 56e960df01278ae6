import RichDoc.Html.Printer

/-!
# Reading markup

What printed text says is a sequence of texts and elements. A reader takes the text apart into
start tags, end tags and characters, one character at a time, and then puts the elements together.
It knows nothing about trees that were printed; it refuses what is not balanced, and it refuses a
special character that is not escaped.
-/

namespace RichDoc

mutual

/-- Whether something holds of the payload and the children of each node of a tree. -/
def Tree.Each (p : NodeData → List Tree → Prop) : Tree → Prop
  | .node _ data children => p data children ∧ Tree.EachOf p children
  | .absent _ => True

/-- Whether something holds of each node of some trees. -/
def Tree.EachOf (p : NodeData → List Tree → Prop) : List Tree → Prop
  | [] => True
  | tree :: rest => Tree.Each p tree ∧ Tree.EachOf p rest

end

mutual

/-- What follows from something that holds throughout a tree holds throughout. -/
theorem Tree.Each.imp {p q : NodeData → List Tree → Prop}
    (h : ∀ data children, p data children → q data children) : {tree : Tree} → tree.Each p →
    tree.Each q
  | .node _ _ _, hp => ⟨h _ _ hp.1, Tree.EachOf.imp h hp.2⟩
  | .absent _, _ => trivial

theorem Tree.EachOf.imp {p q : NodeData → List Tree → Prop}
    (h : ∀ data children, p data children → q data children) : {trees : List Tree} →
    EachOf p trees → EachOf q trees
  | [], _ => trivial
  | _ :: _, hp => ⟨Tree.Each.imp h hp.1, Tree.EachOf.imp h hp.2⟩

end

/-- A node is no comment. -/
def NodeData.Uncommented (data : NodeData) (_children : List Tree) : Prop :=
  data.isComment = false

/-- A void element has no children. -/
def NodeData.VoidEmpty (data : NodeData) (children : List Tree) : Prop :=
  ∀ name, data.name? = some name → Html.isVoid name.localName = true → children = []

namespace Html

/-- What markup says. -/
inductive Markup where
  | text (text : String)
  | element (tag : String) (attrs : List (String × String)) (children : List Markup)

/-- Put a text before markup. Empty texts vanish, and texts side by side are one. -/
def addText (text : String) (rest : List Markup) : List Markup :=
  if text.isEmpty then rest
  else
    match rest with
    | .text next :: rest => .text (text ++ next) :: rest
    | _ => .text text :: rest

/-- The attributes that can be printed, as names and values. -/
def keptAttrs (attrs : List Attribute) : List (String × String) :=
  (attrs.filter fun a => isAttrName a.name.localName).map fun a => (a.name.localName, a.value)

mutual

/-- Put what a tree says before markup. Documents, and elements whose tag cannot be printed, say
what their children say. Attributes whose name cannot be printed are left out. -/
def addTree : Tree → List Markup → List Markup
  | .absent _, rest => rest
  | .node _ .document children, rest => addTrees children rest
  | .node _ (.text text) _, rest => addText text rest
  | .node _ (.comment _) _, rest => rest
  | .node _ (.element name attrs) children, rest =>
    if isTagName name.localName then
      .element name.localName (keptAttrs attrs) (addTrees children []) :: rest
    else addTrees children rest

/-- Put what trees say before markup. -/
def addTrees : List Tree → List Markup → List Markup
  | [], rest => rest
  | tree :: trees, rest => addTree tree (addTrees trees rest)

end

/-- What a tree says, in normal form. -/
def normalForm (tree : Tree) : List Markup := addTree tree []

/-- Whether markup is a text. -/
def Markup.isText : Markup → Bool
  | .text _ => true
  | .element _ _ _ => false

mutual

/-- All texts of a markup are in normal form. -/
def Markup.Settled : Markup → Prop
  | .text text => text.isEmpty = false
  | .element _ _ children => SettledAll children

/-- No text is empty, and no two stand side by side, at any depth. -/
def SettledAll : List Markup → Prop
  | [] => True
  | markup :: rest =>
    markup.Settled ∧ (markup.isText = true → ∀ next ∈ rest.head?, next.isText = false) ∧
      SettledAll rest

end

/-! ### The reader -/

/-- A part of printed text. -/
inductive Token where
  | char (c : Char)
  | start (tag : String) (attrs : List (String × String))
  /-- A start tag that is closed at once. -/
  | empty (tag : String) (attrs : List (String × String))
  | stop (tag : String)

/-- What the reader is in the middle of. -/
inductive Mode where
  | content
  /-- An escape between tags. -/
  | escape (name : List Char)
  /-- Behind the bracket that opens a tag. -/
  | tag
  /-- The name of an end tag. -/
  | stop (tag : List Char)
  /-- The name of a start tag. -/
  | start (tag : List Char)
  /-- The name of an attribute. -/
  | key (tag : List Char) (attrs : List (String × String)) (key : List Char)
  /-- Before the quote that opens a value. -/
  | quote (tag : List Char) (attrs : List (String × String)) (key : List Char)
  | value (tag : List Char) (attrs : List (String × String)) (key value : List Char)
  /-- An escape in a value. -/
  | valueEscape (tag : List Char) (attrs : List (String × String)) (key value name : List Char)
  /-- Behind the quote that closes a value. -/
  | attrs (tag : List Char) (attrs : List (String × String))
  /-- Behind the slash of a tag that is closed at once. -/
  | slash (tag : List Char) (attrs : List (String × String))

/-- Characters that only markup may hold as they are. -/
def isSpecial (c : Char) : Bool := c == '<' || c == '>' || c == '"' || c == '\x27' || c == '&'

/-- The character that an escape stands for. -/
def escaped? : List Char → Option Char
  | ['a', 'm', 'p'] => some '&'
  | ['l', 't'] => some '<'
  | ['g', 't'] => some '>'
  | ['q', 'u', 'o', 't'] => some '"'
  | ['#', '3', '9'] => some '\x27'
  | _ => none

/-- What the reader is in the middle of after a character, and the token that the character ends. -/
def step : Mode → Char → Option (Mode × Option Token)
  | .content, c =>
    if c = '<' then some (.tag, none)
    else if c = '&' then some (.escape [], none)
    else if isSpecial c then none
    else some (.content, some (.char c))
  | .escape name, c =>
    if c = ';' then (escaped? name).map fun c => (.content, some (.char c))
    else some (.escape (name ++ [c]), none)
  | .tag, c =>
    if c = '/' then some (.stop [], none)
    else if isLetter c then some (.start [c], none)
    else none
  | .stop tag, c =>
    if c = '>' then some (.content, some (.stop (String.ofList tag)))
    else if isNameChar c then some (.stop (tag ++ [c]), none)
    else none
  | .start tag, c =>
    if c = '>' then some (.content, some (.start (String.ofList tag) []))
    else if c = '/' then some (.slash tag [], none)
    else if c = ' ' then some (.key tag [] [], none)
    else if isNameChar c then some (.start (tag ++ [c]), none)
    else none
  | .key tag attrs key, c =>
    if c = '=' then some (.quote tag attrs key, none)
    else if isNameChar c then some (.key tag attrs (key ++ [c]), none)
    else none
  | .quote tag attrs key, c => if c = '"' then some (.value tag attrs key [], none) else none
  | .value tag attrs key value, c =>
    if c = '"' then some (.attrs tag (attrs ++ [(String.ofList key, String.ofList value)]), none)
    else if c = '&' then some (.valueEscape tag attrs key value [], none)
    else if isSpecial c then none
    else some (.value tag attrs key (value ++ [c]), none)
  | .valueEscape tag attrs key value name, c =>
    if c = ';' then (escaped? name).map fun c => (.value tag attrs key (value ++ [c]), none)
    else some (.valueEscape tag attrs key value (name ++ [c]), none)
  | .attrs tag attrs, c =>
    if c = '>' then some (.content, some (.start (String.ofList tag) attrs))
    else if c = '/' then some (.slash tag attrs, none)
    else if c = ' ' then some (.key tag attrs [], none)
    else none
  | .slash tag attrs, c =>
    if c = '>' then some (.content, some (.empty (String.ofList tag) attrs)) else none

/-- Take printed text apart. -/
def tokens (mode : Mode) : List Char → Option (List Token)
  | [] =>
    match mode with
    | .content => some []
    | _ => none
  | c :: cs =>
    match step mode c with
    | none => none
    | some (mode, none) => tokens mode cs
    | some (mode, some token) => (tokens mode cs).map (token :: ·)

/-- Markup that has been read from the end on: what follows in the innermost element that is still
open, and for each end tag whose start tag has not come yet, its tag and what follows it. -/
abbrev Readings := List Markup × List (String × List Markup)

/-- Put a token before what follows it. Where a start tag of a void element is complete, it opens
nothing. -/
def readBack (style : Style) : Token → Readings → Option Readings
  | .char c, (inside, outer) => some (addText (String.ofList [c]) inside, outer)
  | .empty tag attrs, (inside, outer) => some (.element tag attrs [] :: inside, outer)
  | .stop tag, (inside, outer) => some ([], (tag, inside) :: outer)
  | .start tag attrs, (inside, outer) =>
    if isVoid tag && !style.xhtml then some (.element tag attrs [] :: inside, outer)
    else
      match outer with
      | (closed, behind) :: outer =>
        if closed = tag then some (.element tag attrs inside :: behind, outer) else none
      | [] => none

/-- Put tokens together. -/
def assemble (style : Style) : List Token → Option Readings
  | [] => some ([], [])
  | token :: rest => (assemble style rest).bind (readBack style token)

/-- What a printed text says, if it is well formed. -/
def decode (style : Style) (text : String) : Option (List Markup) :=
  match (tokens .content text.toList).bind (assemble style) with
  | some (markup, []) => some markup
  | _ => none

end Html

end RichDoc
