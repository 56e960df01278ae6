import RichDoc.Doc.Mark

/-!
# Nodes

A document is a tree of nodes that never change. Every way to make a node turns its marks into a
mark set. A fragment is a sequence of siblings.
-/

namespace RichDoc

/-- A node of a document. Text nodes carry text, all others content. -/
structure Node where
  type : NodeType
  attrs : Attrs
  content : List Node
  marks : List Mark
  text : Option String
  deriving Repr, Inhabited

/-- A sequence of siblings. -/
abbrev Fragment := List Node

namespace Node

/-- A node without text. -/
def make (type : NodeType) (attrs : Attrs) (content : Fragment) (marks : List Mark) : Node :=
  ⟨type, attrs, content, Mark.setOf marks, none⟩

/-- A text node, with a new empty attribute map. -/
def makeText (type : NodeType) (text : String) (marks : List Mark) : Making Node := do
  let attrs ← Attrs.make []
  return ⟨type, attrs, [], Mark.setOf marks, some text⟩

/-- The name of the type. -/
def typeName (node : Node) : String := node.type.name

/-- Whether the node carries text. -/
def isText (node : Node) : Bool := node.text.isSome

/-- Whether the type has no content. -/
def isLeaf (node : Node) : Bool := node.type.isLeaf

/-- Whether the node stands in a line of text. -/
def isInline (node : Node) : Bool := node.type.isInline

/-- Whether the node stands on its own. -/
def isBlock (node : Node) : Bool := node.type.isBlock

/-- The node with other marks. -/
def withMarks (node : Node) (marks : List Mark) : Node :=
  { node with marks := Mark.setOf marks }

mutual

/-- The text of a node and of all nodes below it. -/
def textContent : Node → String
  | ⟨_, _, _, _, some text⟩ => text
  | ⟨_, _, content, _, none⟩ => textContents content

/-- The text of a fragment. -/
def textContents : List Node → String
  | [] => ""
  | node :: rest => textContent node ++ textContents rest

end

/-- Wrap a form in the forms of marks, the first one outermost. -/
def wrapText (marks : List Mark) (base : String) : String :=
  marks.foldr (fun mark inner => mark.debugText ++ "(" ++ inner ++ ")") base

mutual

/-- The form of a node in diagnostics. -/
def debugText : Node → String
  | ⟨_, _, _, marks, some text⟩ => wrapText marks (Text.quoted text)
  | ⟨type, _, [], marks, none⟩ => wrapText marks type.name
  | ⟨type, _, node :: rest, marks, none⟩ =>
    wrapText marks (type.name ++ "(<" ++
      Text.commaSeparated (debugText node :: debugTexts rest) ++ ">)")

/-- The forms of siblings. -/
def debugTexts : List Node → List String
  | [] => []
  | node :: rest => debugText node :: debugTexts rest

end

end Node

/-- The form of a fragment in diagnostics. -/
def Fragment.debugText (fragment : Fragment) : String :=
  "<" ++ Text.commaSeparated (Node.debugTexts fragment) ++ ">"

/-- The text of a fragment. -/
def Fragment.textContent (fragment : Fragment) : String := Node.textContents fragment

end RichDoc
