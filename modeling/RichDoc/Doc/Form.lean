import RichDoc.Json.Draft
import RichDoc.Json.Printer

/-!
# The stored form of a document

A document is stored as JSON: an object with the fields of a node, or an array of their values in
order with defaulted ones left out at the end. The form is read from a value or from a draft of a
text. Both readings visit fields in the order in which they are written and report the first thing
that is wrong.
-/

namespace RichDoc

open Json (Fields Fault Draft DraftText)

/-- A mark as it is stored. -/
structure MarkForm where
  typeName : String
  attrs : Option Fields
  deriving Repr, Inhabited

/-- A node as it is stored. -/
structure NodeForm where
  typeName : String
  attrs : Option Fields
  content : List NodeForm
  marks : List MarkForm
  text : Option String
  deriving Repr, Inhabited

namespace Form

/-- What stands where something else was expected. -/
inductive Found where
  | null
  | bool (b : Bool)
  | num (n : Number)
  | str (s : String)
  | sequence
  | map
  deriving DecidableEq, Repr

/-- How a value reads in a message. -/
def Found.text : Found → String
  | .null => "null"
  | .bool b => "boolean `" ++ Text.boolText b ++ "`"
  | .num (.int n) => "integer `" ++ toString n ++ "`"
  | .num (.float x) => "floating point `" ++ x.text ++ "`"
  | .str s => "string " ++ Text.quoted s
  | .sequence => "sequence"
  | .map => "map"

/-- What a place in the form asks for. -/
inductive Expected where
  | string
  | map
  | sequence
  | node
  | mark
  deriving DecidableEq, Repr

/-- How a demand reads in a message. -/
def Expected.text : Expected → String
  | .string => "a string"
  | .map => "a map"
  | .sequence => "a sequence"
  | .node => "struct NodeJson"
  | .mark => "struct MarkJson"

/-- The fields of a node, in the order of the array form. -/
inductive NodeField where
  | type
  | attrs
  | content
  | marks
  | text
  deriving DecidableEq, Repr

/-- The fields of a node by their names. -/
def nodeFields : List (String × NodeField) :=
  [("type", .type), ("attrs", .attrs), ("content", .content), ("marks", .marks), ("text", .text)]

/-- The fields of a mark, in the order of the array form. -/
inductive MarkField where
  | type
  | attrs
  deriving DecidableEq, Repr

/-- The fields of a mark by their names. -/
def markFields : List (String × MarkField) := [("type", .type), ("attrs", .attrs)]

/-- Why JSON is not the form of a document. -/
inductive Mismatch where
  | missingType
  | unknownField (name : String) (of : Expected)
  | duplicateField (name : String)
  | wrongKind (found : Found) (expected : Expected)
  | tooShort (of : Expected)
  | tooLong (length : Nat)
  deriving DecidableEq, Repr

/-- The names of the fields, as a choice. -/
def choiceText : List String → String
  | [a, b] => "`" ++ a ++ "` or `" ++ b ++ "`"
  | names => "one of " ++ Text.commaSeparated (names.map fun name => "`" ++ name ++ "`")

/-- The names of the fields of a node or a mark. -/
def fieldNames : Expected → List String
  | .mark => markFields.map Prod.fst
  | _ => nodeFields.map Prod.fst

/-- The wording of a mismatch. -/
def Mismatch.message : Mismatch → String
  | .missingType => "missing field `type`"
  | .unknownField name place =>
    "unknown field `" ++ name ++ "`, expected " ++ choiceText (fieldNames place)
  | .duplicateField name => "duplicate field `" ++ name ++ "`"
  | .wrongKind found expected =>
    "invalid type: " ++ found.text ++ ", expected " ++ expected.text
  | .tooShort place =>
    "invalid length 0, expected " ++ place.text ++ " with " ++
      toString (fieldNames place).length ++ " elements"
  | .tooLong length =>
    "invalid length " ++ toString length ++ ", expected fewer elements in array"

/-- Why a text is not the form of a document: it is not JSON, or not the right JSON. -/
inductive TextFault where
  | json (fault : Fault)
  | form (mismatch : Mismatch)
  deriving DecidableEq, Repr

/-- The wording of a fault. -/
def TextFault.message : TextFault → String
  | .json fault => fault.message
  | .form mismatch => mismatch.message

/-- A mark of which some fields have been read. -/
structure MarkParts where
  typeName : Option String
  attrs : Option (Option Fields)
  deriving Inhabited

namespace MarkParts

/-- Nothing has been read. -/
def empty : MarkParts := ⟨none, none⟩

/-- Whether a field has been read. -/
def has (parts : MarkParts) : MarkField → Bool
  | .type => parts.typeName.isSome
  | .attrs => parts.attrs.isSome

/-- The mark, once all fields have been read. -/
def finish (parts : MarkParts) : Except Mismatch MarkForm :=
  match parts.typeName with
  | none => .error .missingType
  | some typeName => .ok ⟨typeName, parts.attrs.getD none⟩

end MarkParts

/-- A node of which some fields have been read. -/
structure NodeParts where
  typeName : Option String
  attrs : Option (Option Fields)
  content : Option (List NodeForm)
  marks : Option (List MarkForm)
  text : Option (Option String)
  deriving Inhabited

namespace NodeParts

/-- Nothing has been read. -/
def empty : NodeParts := ⟨none, none, none, none, none⟩

/-- Whether a field has been read. -/
def has (parts : NodeParts) : NodeField → Bool
  | .type => parts.typeName.isSome
  | .attrs => parts.attrs.isSome
  | .content => parts.content.isSome
  | .marks => parts.marks.isSome
  | .text => parts.text.isSome

/-- The node, once all fields have been read. -/
def finish (parts : NodeParts) : Except Mismatch NodeForm :=
  match parts.typeName with
  | none => .error .missingType
  | some typeName =>
    .ok ⟨typeName, parts.attrs.getD none, parts.content.getD [], parts.marks.getD [],
      parts.text.getD none⟩

end NodeParts

/-! ## Reading a value -/

/-- What a value is, for a message. -/
def Found.ofJson : Json → Found
  | .null => .null
  | .bool b => .bool b
  | .num n => .num n
  | .str s => .str s
  | .arr _ => .sequence
  | .obj _ => .map

/-- A value of the wrong kind. -/
def wrongJson {α : Type} (value : Json) (expected : Expected) : Except Mismatch α :=
  .error (.wrongKind (.ofJson value) expected)

/-- A string. -/
def stringOfJson : Json → Except Mismatch String
  | .str s => .ok s
  | value => wrongJson value .string

/-- A string, or null for none. -/
def textOfJson : Json → Except Mismatch (Option String)
  | .null => .ok none
  | .str s => .ok (some s)
  | value => wrongJson value .string

/-- A map of attributes, or null for none. -/
def attrsOfJson : Json → Except Mismatch (Option Fields)
  | .null => .ok none
  | .obj fields => .ok (some fields)
  | value => wrongJson value .map

/-- The fields of a mark. -/
def markFieldsOfJson : MarkParts → List (String × Json) → Except Mismatch MarkParts
  | parts, [] => .ok parts
  | parts, (name, value) :: rest =>
    match markFields.lookup name with
    | none => .error (.unknownField name .mark)
    | some field =>
      if parts.has field then .error (.duplicateField name)
      else
        match field with
        | .type => do
          let typeName ← stringOfJson value
          markFieldsOfJson { parts with typeName := some typeName } rest
        | .attrs => do
          let attrs ← attrsOfJson value
          markFieldsOfJson { parts with attrs := some attrs } rest

/-- A mark. -/
def markOfJson : Json → Except Mismatch MarkForm
  | .obj fields => do
    let parts ← markFieldsOfJson .empty fields
    parts.finish
  | .arr [] => .error (.tooShort .mark)
  | .arr [typeName] => do
    let typeName ← stringOfJson typeName
    .ok ⟨typeName, none⟩
  | .arr (typeName :: attrs :: rest) => do
    let typeName ← stringOfJson typeName
    let attrs ← attrsOfJson attrs
    if rest.isEmpty then .ok ⟨typeName, attrs⟩ else .error (.tooLong (rest.length + 2))
  | value => wrongJson value .mark

/-- Marks one after another. -/
def markItemsOfJson : List Json → Except Mismatch (List MarkForm)
  | [] => .ok []
  | item :: rest => do
    let mark ← markOfJson item
    let marks ← markItemsOfJson rest
    .ok (mark :: marks)

/-- A list of marks. -/
def marksOfJson : Json → Except Mismatch (List MarkForm)
  | .arr items => markItemsOfJson items
  | value => wrongJson value .sequence

mutual

/-- A node. -/
def nodeOfJson : Json → Except Mismatch NodeForm
  | .obj fields => do
    let parts ← nodeFieldsOfJson .empty fields
    parts.finish
  | .arr items => nodeItemsOfJson items
  | value => wrongJson value .node

/-- The fields of a node. -/
def nodeFieldsOfJson : NodeParts → List (String × Json) → Except Mismatch NodeParts
  | parts, [] => .ok parts
  | parts, (name, value) :: rest =>
    match nodeFields.lookup name with
    | none => .error (.unknownField name .node)
    | some field =>
      if parts.has field then .error (.duplicateField name)
      else
        match field with
        | .type => do
          let typeName ← stringOfJson value
          nodeFieldsOfJson { parts with typeName := some typeName } rest
        | .attrs => do
          let attrs ← attrsOfJson value
          nodeFieldsOfJson { parts with attrs := some attrs } rest
        | .content => do
          let content ← contentOfJson value
          nodeFieldsOfJson { parts with content := some content } rest
        | .marks => do
          let marks ← marksOfJson value
          nodeFieldsOfJson { parts with marks := some marks } rest
        | .text => do
          let text ← textOfJson value
          nodeFieldsOfJson { parts with text := some text } rest

/-- The array form of a node. -/
def nodeItemsOfJson : List Json → Except Mismatch NodeForm
  | [] => .error (.tooShort .node)
  | [typeName] => do
    let typeName ← stringOfJson typeName
    .ok ⟨typeName, none, [], [], none⟩
  | [typeName, attrs] => do
    let typeName ← stringOfJson typeName
    let attrs ← attrsOfJson attrs
    .ok ⟨typeName, attrs, [], [], none⟩
  | [typeName, attrs, content] => do
    let typeName ← stringOfJson typeName
    let attrs ← attrsOfJson attrs
    let content ← contentOfJson content
    .ok ⟨typeName, attrs, content, [], none⟩
  | [typeName, attrs, content, marks] => do
    let typeName ← stringOfJson typeName
    let attrs ← attrsOfJson attrs
    let content ← contentOfJson content
    let marks ← marksOfJson marks
    .ok ⟨typeName, attrs, content, marks, none⟩
  | typeName :: attrs :: content :: marks :: text :: rest => do
    let typeName ← stringOfJson typeName
    let attrs ← attrsOfJson attrs
    let content ← contentOfJson content
    let marks ← marksOfJson marks
    let text ← textOfJson text
    if rest.isEmpty then .ok ⟨typeName, attrs, content, marks, text⟩
    else .error (.tooLong (rest.length + 5))

/-- A list of nodes. -/
def contentOfJson : Json → Except Mismatch (List NodeForm)
  | .arr items => nodesOfJson items
  | value => wrongJson value .sequence

/-- Nodes one after another. -/
def nodesOfJson : List Json → Except Mismatch (List NodeForm)
  | [] => .ok []
  | item :: rest => do
    let node ← nodeOfJson item
    let nodes ← nodesOfJson rest
    .ok (node :: nodes)

end

/-! ## Reading a draft -/

/-- What a draft is, for a message. -/
def Found.ofDraft : Draft → Found
  | .null => .null
  | .bool b => .bool b
  | .num n => .num n
  | .str s => .str s
  | .arr _ _ => .sequence
  | .obj _ _ => .map
  | .cut _ => .null

/-- A draft of the wrong kind. A value that is broken off is a fault of the text; a container counts
as soon as it begins. -/
def wrongDraft {α : Type} (draft : Draft) (expected : Expected) : Except TextFault α :=
  match draft with
  | .cut fault => .error (.json fault)
  | draft => .error (.form (.wrongKind (.ofDraft draft) expected))

/-- Succeed unless the reading stopped here. -/
def finishDraft {α : Type} (value : α) : Option Fault → Except TextFault α
  | none => .ok value
  | some fault => .error (.json fault)

/-- A fault of the text. -/
def ofFault {α : Type} : Except Fault α → Except TextFault α
  | .ok value => .ok value
  | .error fault => .error (.json fault)

/-- A mismatch in a text. -/
def ofMismatch {α : Type} : Except Mismatch α → Except TextFault α
  | .ok value => .ok value
  | .error mismatch => .error (.form mismatch)

/-- A string. -/
def stringOfDraft : Draft → Except TextFault String
  | .str s => .ok s
  | draft => wrongDraft draft .string

/-- A string, or null for none. -/
def textOfDraft : Draft → Except TextFault (Option String)
  | .null => .ok none
  | .str s => .ok (some s)
  | draft => wrongDraft draft .string

/-- A map of attributes, or null for none. -/
def attrsOfDraft : Draft → Except TextFault (Option Fields)
  | .null => .ok none
  | .obj fields tail => do
    let pairs ← ofFault (Draft.toPairs fields)
    finishDraft (some (Fields.ofPairs pairs)) tail
  | draft => wrongDraft draft .map

/-- The end of an array form: nothing may follow its last field. A comma before the closing bracket
is told apart from all else that may follow. -/
def endItems {α : Type} (value : α) (rest : List Draft) (tail : Option Fault) :
    Except TextFault α :=
  match rest, tail with
  | [], none => .ok value
  | [], some .endInList => .error (.json .endInList)
  | [], some .trailingComma => .error (.json .trailingComma)
  | _, _ => .error (.json .trailingText)

/-- The fields of a mark. -/
def markFieldsOfDraft : MarkParts → List (String × Draft) → Except TextFault MarkParts
  | parts, [] => .ok parts
  | parts, (name, value) :: rest =>
    match markFields.lookup name with
    | none => .error (.form (.unknownField name .mark))
    | some field =>
      if parts.has field then .error (.form (.duplicateField name))
      else
        match field with
        | .type => do
          let typeName ← stringOfDraft value
          markFieldsOfDraft { parts with typeName := some typeName } rest
        | .attrs => do
          let attrs ← attrsOfDraft value
          markFieldsOfDraft { parts with attrs := some attrs } rest

/-- A mark. -/
def markOfDraft : Draft → Except TextFault MarkForm
  | .obj fields tail => do
    let parts ← markFieldsOfDraft .empty fields
    let parts ← finishDraft parts tail
    ofMismatch parts.finish
  | .arr [] tail => do
    finishDraft () tail
    .error (.form (.tooShort .mark))
  | .arr [typeName] tail => do
    let typeName ← stringOfDraft typeName
    finishDraft ⟨typeName, none⟩ tail
  | .arr (typeName :: attrs :: rest) tail => do
    let typeName ← stringOfDraft typeName
    let attrs ← attrsOfDraft attrs
    endItems ⟨typeName, attrs⟩ rest tail
  | draft => wrongDraft draft .mark

/-- Marks one after another. -/
def markItemsOfDraft : List Draft → Except TextFault (List MarkForm)
  | [] => .ok []
  | item :: rest => do
    let mark ← markOfDraft item
    let marks ← markItemsOfDraft rest
    .ok (mark :: marks)

/-- A list of marks. -/
def marksOfDraft : Draft → Except TextFault (List MarkForm)
  | .arr items tail => do
    let marks ← markItemsOfDraft items
    finishDraft marks tail
  | draft => wrongDraft draft .sequence

mutual

/-- A node. -/
def nodeOfDraft : Draft → Except TextFault NodeForm
  | .obj fields tail => do
    let parts ← nodeFieldsOfDraft .empty fields
    let parts ← finishDraft parts tail
    ofMismatch parts.finish
  | .arr items tail => nodeItemsOfDraft items tail
  | draft => wrongDraft draft .node

/-- The fields of a node. -/
def nodeFieldsOfDraft : NodeParts → List (String × Draft) → Except TextFault NodeParts
  | parts, [] => .ok parts
  | parts, (name, value) :: rest =>
    match nodeFields.lookup name with
    | none => .error (.form (.unknownField name .node))
    | some field =>
      if parts.has field then .error (.form (.duplicateField name))
      else
        match field with
        | .type => do
          let typeName ← stringOfDraft value
          nodeFieldsOfDraft { parts with typeName := some typeName } rest
        | .attrs => do
          let attrs ← attrsOfDraft value
          nodeFieldsOfDraft { parts with attrs := some attrs } rest
        | .content => do
          let content ← contentOfDraft value
          nodeFieldsOfDraft { parts with content := some content } rest
        | .marks => do
          let marks ← marksOfDraft value
          nodeFieldsOfDraft { parts with marks := some marks } rest
        | .text => do
          let text ← textOfDraft value
          nodeFieldsOfDraft { parts with text := some text } rest

/-- The array form of a node. -/
def nodeItemsOfDraft : List Draft → Option Fault → Except TextFault NodeForm
  | [], tail => do
    finishDraft () tail
    .error (.form (.tooShort .node))
  | [typeName], tail => do
    let typeName ← stringOfDraft typeName
    finishDraft ⟨typeName, none, [], [], none⟩ tail
  | [typeName, attrs], tail => do
    let typeName ← stringOfDraft typeName
    let attrs ← attrsOfDraft attrs
    finishDraft ⟨typeName, attrs, [], [], none⟩ tail
  | [typeName, attrs, content], tail => do
    let typeName ← stringOfDraft typeName
    let attrs ← attrsOfDraft attrs
    let content ← contentOfDraft content
    finishDraft ⟨typeName, attrs, content, [], none⟩ tail
  | [typeName, attrs, content, marks], tail => do
    let typeName ← stringOfDraft typeName
    let attrs ← attrsOfDraft attrs
    let content ← contentOfDraft content
    let marks ← marksOfDraft marks
    finishDraft ⟨typeName, attrs, content, marks, none⟩ tail
  | typeName :: attrs :: content :: marks :: text :: rest, tail => do
    let typeName ← stringOfDraft typeName
    let attrs ← attrsOfDraft attrs
    let content ← contentOfDraft content
    let marks ← marksOfDraft marks
    let text ← textOfDraft text
    endItems ⟨typeName, attrs, content, marks, text⟩ rest tail

/-- A list of nodes. -/
def contentOfDraft : Draft → Except TextFault (List NodeForm)
  | .arr items tail => do
    let nodes ← nodesOfDraft items
    finishDraft nodes tail
  | draft => wrongDraft draft .sequence

/-- Nodes one after another. -/
def nodesOfDraft : List Draft → Except TextFault (List NodeForm)
  | [] => .ok []
  | item :: rest => do
    let node ← nodeOfDraft item
    let nodes ← nodesOfDraft rest
    .ok (node :: nodes)

end

end Form

namespace NodeForm

/-- The form that a value stands for. -/
def ofJson (value : Json) : Except Form.Mismatch NodeForm := Form.nodeOfJson value

/-- The form that a text stands for. Text after the value is looked at last. -/
def ofDraftText (text : DraftText) : Except Form.TextFault NodeForm := do
  let form ← Form.nodeOfDraft text.value
  Form.finishDraft form text.tail

end NodeForm

end RichDoc
