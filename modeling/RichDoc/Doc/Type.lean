import RichDoc.Json.Basic
import RichDoc.Text.Quoted

/-!
# Types of nodes and marks

A type declares the attributes of its nodes or marks. A node type whose content expression is
missing or blank is a leaf. The rank of a mark type is the position of its declaration and orders
the marks of a node.
-/

namespace RichDoc

/-- The declaration of an attribute. Without a default it has to be given. -/
structure AttrDecl where
  name : String
  default : Option Json
  deriving Repr, Inhabited

/-- The name of the type of text nodes. -/
def textTypeName : String := "text"

/-- A type of nodes. -/
structure NodeType where
  name : String
  /-- What nodes of the type may contain. It is kept as declared and not interpreted. -/
  content : Option String
  group : Option String
  declaredInline : Bool
  attrs : List AttrDecl
  deriving Repr, Inhabited

namespace NodeType

/-- Whether this is the type of text nodes. -/
def isText (t : NodeType) : Bool := t.name == textTypeName

/-- Whether nodes of the type have no content. -/
def isLeaf (t : NodeType) : Bool :=
  match t.content with
  | none => true
  | some expression => Text.isBlank expression

/-- Whether nodes of the type stand in a line of text. -/
def isInline (t : NodeType) : Bool := t.declaredInline || t.isText

/-- Whether nodes of the type stand on their own. -/
def isBlock (t : NodeType) : Bool := !t.isInline

/-- The form of a type in diagnostics. -/
def debugText (t : NodeType) : String := "NodeType(" ++ t.name ++ ")"

end NodeType

/-- A type of marks. -/
structure MarkType where
  name : String
  rank : Nat
  /-- Whether neighbours with an equal mark share one wrapper. -/
  spanning : Bool
  attrs : List AttrDecl
  deriving Repr, Inhabited

/-- The form of a type in diagnostics. -/
def MarkType.debugText (t : MarkType) : String := "MarkType(" ++ t.name ++ ")"

end RichDoc
