import RichDoc.Json.Reader
import RichDoc.Schema

/-!
# Loading documents

A stored form becomes a document through a schema. The marks of a node are made first; then a text
node needs a text and no content, and any other node needs a declared type and no text. Content is
made before the node that holds it.
-/

namespace RichDoc

namespace Schema

/-- Make marks one after another. -/
def resolveMarks (schema : Schema) : List MarkForm → Making (List Mark)
  | [] => pure []
  | form :: rest => do
    let mark ← schema.mark form.typeName form.attrs
    let marks ← resolveMarks schema rest
    return mark :: marks

/-- A text node. -/
def resolveText (schema : Schema) (content : List NodeForm) (text : Option String)
    (marks : List Mark) : Making Node := do
  if !content.isEmpty then throw (.invalidDocument .textWithContent)
  match text with
  | none => throw (.invalidDocument .textWithoutText)
  | some text => schema.text text marks

mutual

/-- The node that a form stands for. -/
def resolveNode (schema : Schema) : NodeForm → Making Node
  | ⟨typeName, attrs, content, marks, text⟩ => do
    let marks ← schema.resolveMarks marks
    if typeName = textTypeName then schema.resolveText content text marks
    else if text.isSome then throw (.invalidDocument (.textOutsideText typeName))
    else
      let content ← resolveNodes schema content
      schema.node typeName attrs content marks

/-- The nodes that forms stand for. -/
def resolveNodes (schema : Schema) : List NodeForm → Making (List Node)
  | [] => pure []
  | form :: rest => do
    let node ← resolveNode schema form
    let nodes ← resolveNodes schema rest
    return node :: nodes

end

/-- The document that a JSON value stands for. -/
def loadJson (schema : Schema) (value : Json) : Making Node :=
  match NodeForm.ofJson value with
  | .error mismatch => throw (.json (.value mismatch))
  | .ok form => schema.resolveNode form

/-- The document that a text stands for, as far as the text could be read. -/
def loadDraft (schema : Schema) (draft : Json.DraftText) : Making Node :=
  match NodeForm.ofDraftText draft with
  | .error fault => throw (.json (.text fault))
  | .ok form => schema.resolveNode form

/-- The document that a text stands for. -/
def loadText (schema : Schema) (text : String) : Making Node := schema.loadDraft (.ofText text)

end Schema

end RichDoc
