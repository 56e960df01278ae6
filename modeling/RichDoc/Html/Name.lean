import RichDoc.Text.CharTable

/-!
# Names that can be printed as markup

A tag starts with an ASCII letter. No name holds white space, a control character or a character
that ends a tag, so a printed name is read back as one name.
-/

namespace RichDoc.Html

/-- A character that a printed name may hold. -/
def isNameChar (c : Char) : Bool :=
  !(Text.isSpace c || Text.isControl c || c == '<' || c == '>' || c == '"' || c == '\x27' ||
    c == '/' || c == '=')

/-- ASCII letters. -/
def isLetter (c : Char) : Bool := ('a' ≤ c && c ≤ 'z') || ('A' ≤ c && c ≤ 'Z')

/-- Whether a tag can be printed. -/
def isTagName (name : String) : Bool :=
  match name.toList with
  | [] => false
  | c :: rest => isLetter c && rest.all isNameChar

/-- Whether an attribute name can be printed. -/
def isAttrName (name : String) : Bool := !name.toList.isEmpty && name.toList.all isNameChar

/-- Elements without content and without an end tag. -/
def voidElements : List String :=
  ["area", "base", "br", "col", "embed", "hr", "img", "input", "link", "meta", "source", "track",
    "wbr"]

/-- Whether a tag names a void element. -/
def isVoid (tag : String) : Bool := voidElements.contains tag

end RichDoc.Html
