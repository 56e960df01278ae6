import RichDoc.Markup.Reference

/-!
# Characters of markup

Markup asks only for ASCII classes of characters, and compares names in lower case. A null is never
part of a text.
-/

namespace RichDoc.Markup

/-- White space inside a tag. -/
def isGap (c : Char) : Bool :=
  c == ' ' || c == '\t' || c == '\n' || c == '\x0c' || c == '\r'

/-- ASCII letters. -/
def isLetter (c : Char) : Bool := ('a' ≤ c && c ≤ 'z') || ('A' ≤ c && c ≤ 'Z')

/-- ASCII digits. -/
def isDigit (c : Char) : Bool := '0' ≤ c && c ≤ '9'

/-- The lower case of an ASCII letter; a null is replaced. -/
def fold (c : Char) : Char :=
  if c = '\x00' then replacement
  else if 'A' ≤ c ∧ c ≤ 'Z' then Char.ofNat (c.toNat + 32)
  else c

/-- A null is replaced. -/
def shown (c : Char) : Char := if c = '\x00' then replacement else c

/-- Whether a list begins with a word in any case. -/
def startsWithWord (word : String) (cs : List Char) : Bool :=
  (cs.take word.length).map fold == word.toList

end RichDoc.Markup
