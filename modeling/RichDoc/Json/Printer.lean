import RichDoc.Binary64.Shortest
import RichDoc.Json.Basic
import RichDoc.Text.Quoted

/-!
# JSON text

Two ways to write a value: compact JSON, and the constructor form that diagnostics show.
-/

namespace RichDoc

/-- The text of a number. -/
def Number.text : Number → String
  | .int n => toString n
  | .float x => x.text

namespace Json

/-- The form of one character in a JSON string. -/
def escapeChar (c : Char) : List Char :=
  match c with
  | '"' => ['\\', '"']
  | '\\' => ['\\', '\\']
  | '\x08' => ['\\', 'b']
  | '\x0c' => ['\\', 'f']
  | '\n' => ['\\', 'n']
  | '\r' => ['\\', 'r']
  | '\t' => ['\\', 't']
  | c =>
    if c.toNat < 0x10 then ['\\', 'u', '0', '0', '0'] ++ Text.hexDigits c.toNat
    else if c.toNat < 0x20 then ['\\', 'u', '0', '0'] ++ Text.hexDigits c.toNat
    else [c]

/-- A string literal. -/
def literal (s : String) : String :=
  "\"" ++ String.ofList (s.toList.flatMap escapeChar) ++ "\""

mutual

/-- Compact JSON, without white space. -/
def print : Json → String
  | .null => "null"
  | .bool b => Text.boolText b
  | .num n => n.text
  | .str s => literal s
  | .arr items => "[" ++ ",".intercalate (printItems items) ++ "]"
  | .obj fields => "\x7b" ++ ",".intercalate (printFields fields) ++ "\x7d"

/-- The texts of the items. -/
def printItems : List Json → List String
  | [] => []
  | item :: rest => print item :: printItems rest

/-- The texts of the fields. -/
def printFields : List (String × Json) → List String
  | [] => []
  | (key, value) :: rest => (literal key ++ ":" ++ print value) :: printFields rest

end

mutual

/-- The form that names each kind of value. -/
def debugText : Json → String
  | .null => "Null"
  | .bool b => "Bool(" ++ Text.boolText b ++ ")"
  | .num n => "Number(" ++ n.text ++ ")"
  | .str s => "String(" ++ Text.quoted s ++ ")"
  | .arr items => "Array " ++ Text.bracketed (debugItems items)
  | .obj fields => "Object " ++ "\x7b" ++ Text.commaSeparated (debugFields fields) ++ "\x7d"

/-- The forms of the items. -/
def debugItems : List Json → List String
  | [] => []
  | item :: rest => debugText item :: debugItems rest

/-- The forms of the fields. -/
def debugFields : List (String × Json) → List String
  | [] => []
  | (key, value) :: rest => (Text.quoted key ++ ": " ++ debugText value) :: debugFields rest

end

/-- The form of an attribute map. -/
def Fields.debugText (fields : Fields) : String :=
  "\x7b" ++ Text.commaSeparated (debugFields fields) ++ "\x7d"

end Json

end RichDoc
