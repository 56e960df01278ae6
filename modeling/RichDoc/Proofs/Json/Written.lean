import RichDoc.Json.Printer
import Mathlib.Data.List.Basic

/-!
# The JSON text of a value

The text of a JSON value is said here by the grammar of JSON, character by character: literals,
numbers, strings between quotation marks, and what follows the opening bracket of a list or the
opening brace of an object. The printer of values writes exactly this text.
-/

namespace RichDoc.Json

/-! ### The text of a value -/

/-- The characters of a string that have an escape of two characters, with the second of these. -/
def shortEscapes : List (Char × Char) :=
  [('"', '"'), ('\\', '\\'), ('\x08', 'b'), ('\x0c', 'f'), ('\n', 'n'), ('\r', 'r'), ('\t', 't')]

/-- A digit in base sixteen, in lower case. -/
def hexDigit (n : Nat) : Char := "0123456789abcdef".toList.getD n '0'

/-- The characters that stand for a character of a string. All that is below the space is escaped,
with its two digits if there is no shorter way. -/
def escaped (c : Char) : List Char :=
  match shortEscapes.lookup c with
  | some mark => ['\\', mark]
  | none =>
    if c.toNat < 32 then ['\\', 'u', '0', '0', hexDigit (c.toNat / 16), hexDigit (c.toNat % 16)]
    else [c]

/-- A string between quotation marks. -/
def writtenString (s : String) : List Char := '"' :: (s.toList.flatMap escaped ++ ['"'])

mutual

/-- The characters of the JSON text of a value. -/
def written : Json → List Char
  | .null => ['n', 'u', 'l', 'l']
  | .bool true => ['t', 'r', 'u', 'e']
  | .bool false => ['f', 'a', 'l', 's', 'e']
  | .num (.int n) => (toString n).toList
  | .num (.float x) => x.text.toList
  | .str s => writtenString s
  | .arr [] => ['[', ']']
  | .arr (item :: rest) => '[' :: (written item ++ writtenItems rest)
  | .obj [] => ['\x7b', '\x7d']
  | .obj ((key, value) :: rest) =>
    '\x7b' :: (writtenString key ++ ':' :: (written value ++ writtenFields rest))

/-- The end of a list: further items, each after a comma, and the closing bracket. -/
def writtenItems : List Json → List Char
  | [] => [']']
  | item :: rest => ',' :: (written item ++ writtenItems rest)

/-- The end of an object: further fields, each after a comma, and the closing brace. -/
def writtenFields : List (String × Json) → List Char
  | [] => ['\x7d']
  | (key, value) :: rest =>
    ',' :: (writtenString key ++ ':' :: (written value ++ writtenFields rest))

end

/-! ### The printer writes this text -/

/-- The two digits of a number below thirty-two. -/
theorem hexDigits_eq : ∀ n < 32,
    (if n < 16 then '0' :: Text.hexDigits n else Text.hexDigits n) =
      [hexDigit (n / 16), hexDigit (n % 16)] := by
  decide

/-- The printer escapes the characters that are to be escaped. -/
theorem escapeChar_eq (c : Char) : escapeChar c = escaped c := by
  unfold escapeChar
  split
  iterate 7 rfl
  have hlookup : shortEscapes.lookup c = none := by
    rw [List.lookup_eq_none_iff]
    simp_all [shortEscapes]
  rw [escaped, hlookup]
  dsimp only
  by_cases hlow : c.toNat < 32
  · rw [if_pos hlow, ← hexDigits_eq c.toNat hlow]
    by_cases h : c.toNat < 16
    · rw [if_pos h, if_pos h, if_pos hlow]
      rfl
    · rw [if_neg h, if_pos hlow, if_neg h]
      rfl
  · rw [if_neg hlow, if_neg (show ¬c.toNat < 16 by omega), if_neg hlow]

/-- The printer writes strings between quotation marks. -/
theorem toList_literal (s : String) : (literal s).toList = writtenString s := by
  rw [literal, writtenString, funext escapeChar_eq]
  simp only [String.toList_append, String.toList_ofList]
  rfl

/-- Texts in brackets, separated by commas. -/
theorem toList_intercalate_cons (text : String) (texts : List String) :
    (",".intercalate (text :: texts)).toList =
      text.toList ++ texts.flatMap fun next => ',' :: next.toList := by
  induction texts generalizing text with
  | nil => simp
  | cons next rest ih =>
    rw [String.intercalate_cons_cons, String.toList_append, String.toList_append, ih,
      List.flatMap_cons]
    simp

mutual

theorem toList_print : (value : Json) → value.print.toList = value.written
  | .null => rfl
  | .bool true => rfl
  | .bool false => rfl
  | .num (.int _) => rfl
  | .num (.float _) => rfl
  | .str s => by rw [print, written, toList_literal]
  | .arr [] => rfl
  | .arr (item :: rest) => by
    rw [print, written, printItems, String.toList_append, String.toList_append,
      toList_intercalate_cons, toList_print item, ← toList_printItems rest]
    simp only [List.append_assoc]
    rfl
  | .obj [] => rfl
  | .obj ((key, value) :: rest) => by
    rw [print, written, printFields, String.toList_append, String.toList_append,
      toList_intercalate_cons, String.toList_append, String.toList_append, toList_literal,
      toList_print value, ← toList_printFields rest]
    simp only [List.append_assoc]
    rfl

theorem toList_printItems : (items : List Json) →
    ((printItems items).flatMap fun next => ',' :: next.toList) ++ [']'] = writtenItems items
  | [] => rfl
  | item :: rest => by
    rw [printItems, writtenItems, List.flatMap_cons, toList_print item, List.append_assoc,
      toList_printItems rest]
    rfl

theorem toList_printFields : (fields : List (String × Json)) →
    ((printFields fields).flatMap fun next => ',' :: next.toList) ++ ['\x7d'] =
      writtenFields fields
  | [] => rfl
  | (key, value) :: rest => by
    rw [printFields, writtenFields, List.flatMap_cons, String.toList_append,
      String.toList_append, toList_literal, toList_print value, List.append_assoc,
      toList_printFields rest]
    simp only [List.append_assoc, List.cons_append]
    rfl

end

end RichDoc.Json
