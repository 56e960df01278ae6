import RichDoc.Markup.Foreign

/-!
# Reading a snippet of markup

A snippet is read as a page: token after token goes through the rules of the part of the page that
is being read, until one has no more use for it. What counts as a token depends on the element that
is being filled. Of the page the first node of its body is kept.
-/

namespace RichDoc.Markup

/-- Read a token by the rules of one part after the other. -/
def completeToken : Nat → Token → Constructing Unit
  | 0, _ => pure ()
  | steps + 1, token => do
    let c ← get
    let outcome ← if c.readsForeign token then foreignRule token else partRule c.mode token
    match outcome with
    | .done => pure ()
    | .again mode =>
      enter mode
      completeToken steps token

/-- Read a token. Every open element hands it on a few times at most. -/
def readToken (token : Token) : Constructing Unit := do
  let c ← get
  set { c with dropsLineFeed := false }
  match token with
  | .breach => pure ()
  | .doctype old =>
    if c.mode = .initial then
      modify fun c => { c with mode := .beforeHtml, oldPage := old }
  | token =>
    unless c.dropsLineFeed && token == .char '\n' do
      completeToken (4 * c.opened.length + 16) token

/-- Leave out a byte order mark where reading starts. -/
def passMark (cs : List Char) : Constructing (List Char) := modifyGet fun c =>
  (if c.dropsMark then Lexer.dropMark cs else cs, { c with dropsMark := false })

/-- Read tokens until the text has ended. Every token takes at least one character. -/
def readTokens : Nat → List Char → Constructing Unit
  | 0, _ => pure ()
  | steps + 1, cs => do
    let cs ← passMark cs
    let c ← get
    let (tokens, rest) := Lexer.next c.textMode c.inForeign cs
    tokens.forM readToken
    unless cs.isEmpty do readTokens steps rest

/-- The page that a text is read as. -/
def parsePage (text : String) : Dom :=
  let cs := Lexer.joinLineEnds text.toList
  ((readTokens (cs.length + 1) cs).run .start).2.dom

/-- The first node of the body of a snippet. -/
def parseSnippet (text : String) : Option Subtree := do
  let page := parsePage text
  let body ← page.findByTag Dom.root "body"
  let first ← (page.children (some body)).head?
  return ⟨page, some first⟩

end RichDoc.Markup
