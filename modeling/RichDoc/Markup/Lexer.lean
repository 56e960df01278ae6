import RichDoc.Markup.Doctype

/-!
# Tokens of markup

Markup is read token by token. What counts as a tag depends on the element that is being filled:
inside some elements only their own end tag is one. Every step takes at least one character, so the
reading ends.
-/

namespace RichDoc.Markup

/-- A start tag. Names are in lower case, and an attribute occurs once. -/
structure Tag where
  name : String
  attrs : List (String × String)
  selfClosing : Bool
  deriving DecidableEq, Repr, Inhabited

/-- The value of an attribute of a tag. -/
def Tag.attribute? (tag : Tag) (name : String) : Option String := tag.attrs.lookup name

/-- A token. -/
inductive Token where
  | char (c : Char)
  | startTag (tag : Tag)
  | endTag (name : String)
  | comment (text : String)
  /-- A document type, and whether it is of an old page. -/
  | doctype (old : Bool)
  /-- A breach of the rules that stands for nothing, as a semicolon that is missing. What comes
  after it no longer comes directly after the tag before it. -/
  | breach
  | endOfText
  deriving DecidableEq, Repr, Inhabited

/-- How text is read. -/
inductive TextMode where
  /-- Tags and references. -/
  | markup
  /-- References, and the end tag of one element. -/
  | escapable (name : String)
  /-- The end tag of one element only. -/
  | raw (name : String)
  /-- No tags at all. -/
  | plain
  deriving DecidableEq, Repr, Inhabited

namespace Lexer

/-- The longest prefix of letters and digits that is a name without a semicolon. -/
def longestName (letters : List Char) : Nat → Option (List Char × List Char)
  | 0 => none
  | n + 1 =>
    match reference? (letters.take (n + 1)) with
    | some chars => some (chars, letters.drop (n + 1))
    | none => longestName letters n

/-- What is read after an ampersand. -/
structure AfterAmpersand where
  chars : List Char
  /-- Whether a semicolon is missing after them. -/
  lacksEnd : Bool
  rest : List Char
  deriving DecidableEq, Repr

/-- Read a named reference after its ampersand. In an attribute a name without a semicolon is text
when a letter, a digit or an equals sign follows. -/
def namedReference (inAttribute : Bool) (cs : List Char) : Option AfterAmpersand :=
  let letters := cs.takeWhile fun c => isLetter c || isDigit c
  let after := cs.drop letters.length
  let closed := match after with
    | ';' :: rest => (reference? (letters ++ [';'])).map fun chars => ⟨chars, false, rest⟩
    | _ => none
  match closed with
  | some found => some found
  | none =>
    match longestName letters (min letters.length longestReference) with
    | none => none
    | some (chars, left) =>
      let next := (left ++ after).head?
      let blocked := inAttribute && (match next with
        | some c => c == '=' || isLetter c || isDigit c
        | none => false)
      if blocked then none else some ⟨chars, true, left ++ after⟩

/-- The character of a numeric reference, before what follows its digits. -/
def numbered (code : Nat) : List Char → AfterAmpersand
  | ';' :: rest => ⟨[characterOf code], false, rest⟩
  | cs => ⟨[characterOf code], true, cs⟩

/-- Read a numeric reference after its number sign. -/
def numericReference (cs : List Char) : Option AfterAmpersand :=
  let hexDigits (rest : List Char) : Option AfterAmpersand :=
    let digits := rest.takeWhile fun c => (hexDigit? c).isSome
    if digits.isEmpty then none
    else some (numbered (hexNumber digits) (rest.drop digits.length))
  match cs with
  | 'x' :: rest => hexDigits rest
  | 'X' :: rest => hexDigits rest
  | cs =>
    let digits := cs.takeWhile isDigit
    if digits.isEmpty then none
    else
      let code := digits.foldl (fun n c => n * 10 + (c.toNat - '0'.toNat)) 0
      some (numbered code (cs.drop digits.length))

/-- Read what an ampersand begins: the characters of a reference, or the ampersand itself. -/
def reference (inAttribute : Bool) (cs : List Char) : AfterAmpersand :=
  let found := match cs with
    | '#' :: rest => numericReference rest
    | cs => namedReference inAttribute cs
  found.getD ⟨['&'], false, cs⟩

/-- Read what an ampersand in a text begins. -/
def textReference (cs : List Char) : List Token × List Char :=
  let found := reference false cs
  let chars := found.chars.map .char
  (if found.lacksEnd then .breach :: chars else chars, found.rest)

/-- Read an attribute value up to where a test holds. The end of the text loses the tag. -/
def attributeValue (stop : Char → Bool) : Nat → List Char → List Char →
    Option (List Char × List Char)
  | 0, _, _ => none
  | fuel + 1, done, cs =>
    match cs with
    | [] => none
    | c :: rest =>
      if stop c then some (done.reverse, c :: rest)
      else if c = '&' then
        let found := reference true rest
        attributeValue stop fuel (found.chars.reverse ++ done) found.rest
      else attributeValue stop fuel (shown c :: done) rest

/-- Read the value after an equals sign. -/
def valueAfterEquals (cs : List Char) : Option (List Char × List Char) :=
  let cs := cs.dropWhile isGap
  match cs with
  | [] => none
  | '"' :: rest =>
    (attributeValue (· == '"') (rest.length + 1) [] rest).map fun found =>
      (found.1, found.2.drop 1)
  | '\x27' :: rest =>
    (attributeValue (· == '\x27') (rest.length + 1) [] rest).map fun found =>
      (found.1, found.2.drop 1)
  | '>' :: rest => some ([], '>' :: rest)
  | cs => attributeValue (fun c => isGap c || c == '>') (cs.length + 1) [] cs

/-- Read the attributes of a tag up to its end. Of attributes with one name the first stays. -/
def tagRest : Nat → List (String × String) → List Char →
    Option (List (String × String) × Bool × List Char)
  | 0, _, _ => none
  | fuel + 1, attrs, cs =>
    match cs.dropWhile isGap with
    | [] => none
    | '>' :: rest => some (attrs, false, rest)
    | '/' :: '>' :: rest => some (attrs, true, rest)
    | '/' :: rest => tagRest fuel attrs rest
    | c :: rest =>
      let inName := rest.takeWhile fun c => !(isGap c || c == '/' || c == '>' || c == '=')
      let name := String.ofList ((c :: inName).map fold)
      let after := (rest.drop inName.length).dropWhile isGap
      let value := match after with
        | '=' :: rest => valueAfterEquals rest
        | after => some ([], after)
      match value with
      | none => none
      | some (value, rest) =>
        let known := attrs.any fun a => a.1 == name
        tagRest fuel (if known then attrs else attrs ++ [(name, String.ofList value)]) rest

/-- Read a tag after its first bracket or slash: its name, attributes and rest. -/
def tag (cs : List Char) : Option (String × List (String × String) × Bool × List Char) :=
  let name := cs.takeWhile fun c => !(isGap c || c == '/' || c == '>')
  (tagRest (cs.length + 1) [] (cs.drop name.length)).map fun found =>
    (String.ofList (name.map fold), found)

/-- Whether a list begins with another. -/
def startsWith (start cs : List Char) : Bool := start.isPrefixOf cs

/-- Read a comment up to its end. -/
def commentBody : List Char → List Char → List Char × List Char
  | done, [] => (done.reverse, [])
  | done, c :: rest =>
    if startsWith "-->".toList (c :: rest) then (done.reverse, (c :: rest).drop 3)
    else if startsWith "--!>".toList (c :: rest) then (done.reverse, (c :: rest).drop 4)
    else if c :: rest = "--!".toList ∨ c :: rest = "--".toList ∨ c :: rest = "-".toList then
      (done.reverse, [])
    else commentBody (shown c :: done) rest

/-- Read a comment after its opening. -/
def comment (cs : List Char) : List Char × List Char :=
  match cs with
  | '>' :: rest => ([], rest)
  | '-' :: '>' :: rest => ([], rest)
  | cs => commentBody [] cs

/-- Text up to a closing bracket, as a comment. -/
def bogusComment (cs : List Char) : List Token × List Char :=
  let text := cs.takeWhile (· != '>')
  ([.comment (String.ofList (text.map shown))], (cs.drop text.length).drop 1)

/-- Read a document type after its keyword. It ends at the first bracket, also inside quotes. -/
def doctype (cs : List Char) : List Token × List Char :=
  let body := cs.takeWhile (· != '>')
  let isOld := match Doctype.read body with
    | none => true
    | some type => type.isOld
  ([.doctype isOld], (cs.drop body.length).drop 1)

/-- Read the characters of a literal section of foreign content. -/
def literalSection : List Char → List Token × List Char
  | [] => ([], [])
  | c :: rest =>
    if startsWith "]]>".toList (c :: rest) then ([], (c :: rest).drop 3)
    else
      let (tokens, left) := literalSection rest
      (.char c :: tokens, left)

/-- Read what an exclamation mark after a bracket begins. -/
def declaration (foreign : Bool) (cs : List Char) : List Token × List Char :=
  if startsWith "--".toList cs then
    let (text, rest) := comment (cs.drop 2)
    ([.comment (String.ofList text)], rest)
  else if startsWithWord "doctype" cs then doctype (cs.drop 7)
  else if foreign && startsWith "[CDATA[".toList cs then literalSection (cs.drop 7)
  else bogusComment cs

/-- Read what a bracket begins. -/
def afterBracket (foreign : Bool) (cs : List Char) : List Token × List Char :=
  match cs with
  | '!' :: rest => declaration foreign rest
  | '?' :: _ => bogusComment cs
  | '/' :: rest =>
    match rest with
    | [] => ([.char '<', .char '/'], [])
    | '>' :: rest => ([.breach], rest)
    | c :: _ =>
      if isLetter c then
        match tag rest with
        | some (name, _, _, rest) => ([.endTag name], rest)
        | none => ([], [])
      else bogusComment rest
  | c :: _ =>
    if isLetter c then
      match tag cs with
      | some (name, attrs, selfClosing, rest) => ([.startTag ⟨name, attrs, selfClosing⟩], rest)
      | none => ([], [])
    else ([.char '<'], cs)
  | [] => ([.char '<'], [])

/-- Read the end tag of an element, if it stands here after its bracket. -/
def ownEndTag (name : String) (cs : List Char) : Option (List Token × List Char) :=
  match cs with
  | '/' :: rest =>
    let word := rest.takeWhile isLetter
    let after := rest.drop word.length
    let ends := match after with
      | c :: _ => isGap c || c == '/' || c == '>'
      | [] => false
    if word.map fold = name.toList && ends then
      match tag rest with
      | some (name, _, _, rest) => some ([.endTag name], rest)
      | none => some ([], [])
    else none
  | _ => none

/-- Whether a tag with a name begins here, up to what comes after its name. -/
def beginsTag (start : String) (cs : List Char) : Bool :=
  startsWithWord start cs && (match (cs.drop start.length).head? with
    | some c => isGap c || c == '/' || c == '>'
    | none => false)

/-- What a place in a script is inside of. -/
inductive ScriptPart where
  | code
  /-- A comment. -/
  | hidden
  /-- A script in a comment. -/
  | nested
  deriving DecidableEq, Repr

/-- The characters of a script, and the rest with its end tag. In a comment a script can hold the
tags of another. -/
def scriptText : ScriptPart → List Char → List Char × List Char
  | _, [] => ([], [])
  | part, c :: rest =>
    let here := c :: rest
    let ends := beginsTag "</script" here
    if ends && part != .nested then ([], here)
    else
      let part := match part with
        | .code => if startsWith "<!--".toList here then .hidden else .code
        | .hidden =>
          if startsWith "-->".toList here then .code
          else if beginsTag "<script" here then .nested
          else .hidden
        | .nested =>
          if startsWith "-->".toList here then .code
          else if ends then .hidden
          else .nested
      let (chars, rest) := scriptText part rest
      (shown c :: chars, rest)

/-- Read the next tokens and what is left. A null is kept in markup, where it may be dropped. -/
def next (mode : TextMode) (foreign : Bool) (cs : List Char) : List Token × List Char :=
  match cs with
  | [] => ([.endOfText], [])
  | c :: rest =>
    match mode with
    | .plain => ([.char (shown c)], rest)
    | .raw name =>
      let (chars, after) := if name = "script" then scriptText .code cs else ([], cs)
      if !chars.isEmpty then (chars.map .char, after)
      else if c = '<' then (ownEndTag name rest).getD ([.char '<'], rest)
      else ([.char (shown c)], rest)
    | .escapable name =>
      if c = '<' then (ownEndTag name rest).getD ([.char '<'], rest)
      else if c = '&' then textReference rest
      else ([.char (shown c)], rest)
    | .markup =>
      if c = '<' then afterBracket foreign rest
      else if c = '&' then textReference rest
      else ([.char c], rest)

/-- Join the two characters of a line end. -/
def joinLineEnds : List Char → List Char
  | [] => []
  | '\r' :: '\n' :: rest => '\n' :: joinLineEnds rest
  | '\r' :: rest => '\n' :: joinLineEnds rest
  | c :: rest => c :: joinLineEnds rest

/-- Drop a byte order mark. -/
def dropMark : List Char → List Char
  | [] => []
  | c :: rest => if c = Char.ofNat 0xfeff then rest else c :: rest

end Lexer

end RichDoc.Markup
