import RichDoc.Json.Basic

/-!
# Partly read JSON

A draft records how far a text could be read as JSON: every value up to the first fault, with
repeated object keys kept, and the fault where the reading stopped. A decoder that walks a draft
from left to right therefore meets a fault of the text and a fault of its own in the order in which
they stand in the text.
-/

namespace RichDoc.Json

/-- Why a text stops being JSON. -/
inductive Fault where
  | endInList
  | endInObject
  | endInString
  | endInValue
  | expectedValue
  | badLiteral
  | badNumber
  | numberTooLarge
  | controlInString
  | badEscape
  | loneSurrogate
  | expectedColon
  | expectedListComma
  | expectedObjectComma
  | trailingComma
  | keyNotString
  | tooDeep
  | trailingText
  deriving DecidableEq, Repr

namespace Fault

/-- The text ended too early; otherwise it holds something that JSON forbids. -/
def isEnd : Fault → Bool
  | .endInList | .endInObject | .endInString | .endInValue => true
  | _ => false

/-- The wording of a fault. -/
def message : Fault → String
  | .endInList => "end of text in a list"
  | .endInObject => "end of text in an object"
  | .endInString => "end of text in a string"
  | .endInValue => "end of text in a value"
  | .expectedValue => "expected a value"
  | .badLiteral => "unknown literal"
  | .badNumber => "invalid number"
  | .numberTooLarge => "number out of range"
  | .controlInString => "control character in a string"
  | .badEscape => "invalid escape"
  | .loneSurrogate => "unpaired surrogate in an escape"
  | .expectedColon => "expected a colon"
  | .expectedListComma => "expected a comma or the end of the list"
  | .expectedObjectComma => "expected a comma or the end of the object"
  | .trailingComma => "trailing comma"
  | .keyNotString => "object key is not a string"
  | .tooDeep => "nesting is too deep"
  | .trailingText => "text after the value"

end Fault

/-- What could be read of a value. A container holds what came before its tail fault; a value that
is itself broken off is its last item. -/
inductive Draft where
  | null
  | bool (b : Bool)
  | num (n : Number)
  | str (s : String)
  | arr (items : List Draft) (tail : Option Fault)
  | obj (fields : List (String × Draft)) (tail : Option Fault)
  | cut (fault : Fault)
  deriving Repr, Inhabited

/-- What could be read of a text: a value, and what is wrong after it. -/
structure DraftText where
  value : Draft
  tail : Option Fault
  deriving Repr, Inhabited

namespace Draft

/-- Succeed unless there is a tail fault. -/
def finish {α : Type} (value : α) : Option Fault → Except Fault α
  | none => .ok value
  | some fault => .error fault

mutual

/-- The value of a draft without faults, or its first fault. Of fields with one name the last
value stays, in the place of the first. -/
def toJson : Draft → Except Fault Json
  | .null => .ok .null
  | .bool b => .ok (.bool b)
  | .num n => .ok (.num n)
  | .str s => .ok (.str s)
  | .arr items tail => do
    let items ← toItems items
    finish (.arr items) tail
  | .obj fields tail => do
    let pairs ← toPairs fields
    finish (.obj (Fields.ofPairs pairs)) tail
  | .cut fault => .error fault

/-- The values of the items. -/
def toItems : List Draft → Except Fault (List Json)
  | [] => .ok []
  | item :: rest => do
    let item ← toJson item
    let rest ← toItems rest
    .ok (item :: rest)

/-- The values of the fields, repeated names kept. -/
def toPairs : List (String × Draft) → Except Fault (List (String × Json))
  | [] => .ok []
  | (key, value) :: rest => do
    let value ← toJson value
    let rest ← toPairs rest
    .ok ((key, value) :: rest)

end

end Draft

/-- The value of a text without faults, or its first fault. -/
def DraftText.toJson (text : DraftText) : Except Fault Json := do
  let value ← text.value.toJson
  Draft.finish value text.tail

end RichDoc.Json
