import RichDoc.Text.CharTable

/-!
# Quoted text

Diagnostics show a text between double quotes. Quotes, backslashes and the common controls have
short escapes; any other character that a reader could not see is shown by its code point.
-/

namespace RichDoc.Text

/-- The digits of a number in base sixteen, lower case, without leading zeros. -/
def hexDigits (n : Nat) : List Char := Nat.toDigits 16 n

/-- The form of one character inside quotes. -/
def quoteChar (c : Char) : List Char :=
  match c with
  | '\x00' => ['\\', '0']
  | '\t' => ['\\', 't']
  | '\n' => ['\\', 'n']
  | '\r' => ['\\', 'r']
  | '"' => ['\\', '"']
  | '\\' => ['\\', '\\']
  | c => if isHidden c then ['\\', 'u', '\x7b'] ++ hexDigits c.toNat ++ ['\x7d'] else [c]

/-- A text between quotes. -/
def quoted (s : String) : String :=
  "\"" ++ String.ofList (s.toList.flatMap quoteChar) ++ "\""

/-- Texts separated by a comma and a space. -/
def commaSeparated (parts : List String) : String := ", ".intercalate parts

/-- Texts in square brackets. -/
def bracketed (parts : List String) : String := "[" ++ commaSeparated parts ++ "]"

/-- A record: its name and its fields in braces. -/
def recordText (name : String) (fields : List (String × String)) : String :=
  name ++ " \x7b " ++ commaSeparated (fields.map fun field => field.1 ++ ": " ++ field.2) ++ " \x7d"

/-- An optional value. -/
def optionText {α : Type} (text : α → String) : Option α → String
  | none => "None"
  | some value => "Some(" ++ text value ++ ")"

/-- A truth value. -/
def boolText (b : Bool) : String := if b then "true" else "false"

/-- Whether a text holds nothing but white space. -/
def isBlank (s : String) : Bool := s.toList.all isSpace

end RichDoc.Text
