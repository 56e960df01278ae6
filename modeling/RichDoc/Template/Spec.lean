import RichDoc.Doc.Attrs
import RichDoc.Dom.Tree

/-!
# What a template returns

A template describes the tree to build: a text, an element with attributes and children, a tree
that exists already, or the same in JSON, where a string is a text and an array is a tag, an
optional object of attributes, and children. One place may be left open for content: the hole.
-/

namespace RichDoc

mutual

/-- A description of a tree. -/
inductive Spec where
  | text (text : String)
  /-- A tree that exists, as it is. -/
  | tree (tree : Subtree)
  /-- A tree that exists, and the node of it that takes the content. -/
  | treeWithHole (tree : Subtree) (hole : Option Link)
  | element (tag : String) (attrs : List (String × Json)) (children : List SpecChild)
  /-- A JSON description. One that is stored in an attribute map tells where. -/
  | json (value : Json) (origin : Option Origin)
  deriving Inhabited

/-- A child of an element. -/
inductive SpecChild where
  /-- The place for the content, which has to be the only child. -/
  | hole
  | spec (spec : Spec)
  deriving Inhabited

end

/-- An element that holds the content. -/
def Spec.wrap (tag : String) : Spec := .element tag [] [.hole]

end RichDoc
