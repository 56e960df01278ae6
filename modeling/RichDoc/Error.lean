import RichDoc.Doc.Form
import RichDoc.Dom.Basic

/-!
# What can go wrong

Every failure of the library, by its cause. The wording is a function of the cause.
-/

namespace RichDoc

/-- A rule of the template language that a template breaks. -/
inductive TemplateFault where
  | badTag (tag : String)
  | badAttrName (name : String)
  | misplacedHole
  | severalHoles
  | noTemplate (value : Json)
  | noTag
  | badChild (child : Json) (tag : String)
  | foreignHole (hole : Link)
  deriving Repr

/-- The wording of a template fault. -/
def TemplateFault.message : TemplateFault → String
  | .badTag tag => "invalid tag name " ++ Text.quoted tag
  | .badAttrName name => "invalid attribute name " ++ Text.quoted name
  | .misplacedHole => "content hole must be the only child of its parent node"
  | .severalHoles => "multiple content holes"
  | .noTemplate value => "expected a string or an array, got " ++ value.print
  | .noTag => "the first element of a spec array must be a tag name"
  | .badChild child tag => "unexpected child " ++ child.print ++ " in <" ++ tag ++ ">"
  | .foreignHole hole =>
    "content hole " ++ linkText hole ++ " is not an element of the rendered tree"

/-- A rule that a schema breaks. -/
inductive SchemaFault where
  | duplicateNodeType (name : String)
  | duplicateMarkType (name : String)
  | noTextType
  | textTypeWithAttributes
  deriving Repr

/-- The wording of a schema fault. -/
def SchemaFault.message : SchemaFault → String
  | .duplicateNodeType name => "duplicate node type " ++ Text.quoted name
  | .duplicateMarkType name => "duplicate mark type " ++ Text.quoted name
  | .noTextType => "every schema needs a 'text' type"
  | .textTypeWithAttributes => "the text node type should not have attributes"

/-- A rule for documents that a node breaks. -/
inductive DocumentFault where
  | textWithContent
  | textWithoutText
  | emptyText
  | textTypeAsNode
  | textOutsideText (typeName : String)
  | leafWithContent (typeName : String)
  deriving Repr

/-- The wording of a document fault. -/
def DocumentFault.message : DocumentFault → String
  | .textWithContent => "text nodes cannot have content"
  | .textWithoutText => "text node without text"
  | .emptyText => "empty text nodes are not allowed"
  | .textTypeAsNode => "text nodes are created with Schema::text"
  | .textOutsideText typeName => "only text nodes carry text, not " ++ Text.quoted typeName
  | .leafWithContent typeName =>
    "leaf node type " ++ Text.quoted typeName ++ " cannot have content"

/-- JSON that is not the form of a document, as a value or as a text. -/
inductive FormFault where
  | value (mismatch : Form.Mismatch)
  | text (fault : Form.TextFault)
  deriving Repr

/-- The wording of a form fault. -/
def FormFault.message : FormFault → String
  | .value mismatch => mismatch.message
  | .text fault => fault.message

/-- A failure of the file system. -/
inductive FileFault where
  | notFound
  | notDirectory
  | isDirectory
  | notUtf8
  | other (reason : String)
  deriving Repr

/-- The wording of a file fault. -/
def FileFault.message : FileFault → String
  | .notFound => "No such file or directory (os error 2)"
  | .notDirectory => "Not a directory (os error 20)"
  | .isDirectory => "Is a directory (os error 21)"
  | .notUtf8 => "stream did not contain valid UTF-8"
  | .other reason => reason

/-- A failure of the library. -/
inductive Error where
  /-- A template breaks the rules of the template language. -/
  | malformedTemplate (fault : TemplateFault)
  /-- A template handed back an array that is stored in the attributes being rendered. -/
  | unsafeTemplate (tag : String)
  /-- The template of a leaf type has a content hole. -/
  | leafContentHole (typeName : String)
  /-- No template for a node type that has to be rendered. -/
  | missingTemplate (typeName : String)
  | invalidSchema (fault : SchemaFault)
  | unknownNodeType (name : String)
  | unknownMarkType (name : String)
  | missingAttribute (typeName name : String)
  | invalidDocument (fault : DocumentFault)
  | json (fault : FormFault)
  | file (fault : FileFault)
  deriving Repr

namespace Error

/-- The wording of a failure. -/
def message : Error → String
  | .malformedTemplate fault => "Malformed template: " ++ fault.message
  | .unsafeTemplate tag =>
    "Using an array from an attribute object as a DOM spec (<" ++ tag ++
      ">). This may be an attempted cross site scripting attack."
  | .leafContentHole typeName => "Content hole not allowed in a leaf node spec (" ++ typeName ++ ")"
  | .missingTemplate typeName =>
    "No DOM template registered for node type " ++ Text.quoted typeName
  | .invalidSchema fault => "Invalid schema: " ++ fault.message
  | .unknownNodeType name => "Unknown node type: " ++ name
  | .unknownMarkType name => "Unknown mark type: " ++ name
  | .missingAttribute typeName name =>
    "No value supplied for attribute " ++ Text.quoted name ++ " of " ++ Text.quoted typeName
  | .invalidDocument fault => "Invalid document: " ++ fault.message
  | .json fault => "JSON error: " ++ fault.message
  | .file fault => "I/O error: " ++ fault.message

/-- Whether the author of a template is to blame, and not the document or the environment. -/
def isTemplateError : Error → Bool
  | .malformedTemplate _ => true
  | .unsafeTemplate _ => true
  | .leafContentHole _ => true
  | _ => false

end Error

end RichDoc
