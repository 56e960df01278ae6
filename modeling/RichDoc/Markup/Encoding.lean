import RichDoc.Markup.Elements
import RichDoc.Markup.Lexer

/-!
# Encodings that a page names

A tag of the head can name the encoding of its page: in an attribute for it, or inside the
description of the type of its content, after the word `charset` and an equals sign. Reading starts
anew behind such a tag, so it matters whether a tag names an encoding, not which.
-/

namespace RichDoc.Markup

/-- What follows the word `charset` and an equals sign, where both first stand together. -/
def afterCharset : List Char → Option (List Char)
  | [] => none
  | c :: rest =>
    let after := ((c :: rest).drop "charset".length).dropWhile isGap
    if startsWithWord "charset" (c :: rest) && after.head? == some '=' then
      some ((after.drop 1).dropWhile isGap)
    else afterCharset rest

/-- The name at the start of a text: in quotes that are closed, or up to a gap or a semicolon. -/
def encodingName : List Char → Option (List Char)
  | [] => none
  | c :: rest =>
    if c = '"' ∨ c = '\x27' then
      let name := rest.takeWhile (· != c)
      if name.length < rest.length then some name else none
    else some ((c :: rest).takeWhile fun c => !(isGap c || c == ';'))

/-- The encoding that a description of a type of content names. -/
def encodingOf (description : String) : Option (List Char) :=
  (afterCharset description.toList).bind encodingName

/-- Whether a tag names the encoding of its page. -/
def Tag.namesEncoding (tag : Tag) : Bool :=
  let describesContent := (tag.attribute? "http-equiv").any (lowerText · == "content-type")
  (tag.attribute? "charset").isSome ||
    (describesContent && ((tag.attribute? "content").bind encodingOf).isSome)

end RichDoc.Markup
