import RichDoc.Schema

/-!
# The basic schema

Paragraphs, headings, quotes, code, images, lists and the common marks. No template takes a tag or
an attribute name from the document.
-/

namespace RichDoc.BasicSchema

/-- A node type without attributes. -/
def nodeType (name : String) (content group : Option String) : NodeType :=
  ⟨name, content, group, false, []⟩

/-- The tag of a heading. Anything but an integer level from 2 to 6 gives the highest one. -/
def headingTag (level : Option Json) : String :=
  match level.bind Json.nat? with
  | some 2 => "h2"
  | some 3 => "h3"
  | some 4 => "h4"
  | some 5 => "h5"
  | some 6 => "h6"
  | _ => "h1"

/-- Headings hold their content. -/
def heading : NodeTemplate := fun node => .wrap (headingTag (node.attrs.get? "level"))

/-- Code blocks hold their content in a nested element. -/
def codeBlock : NodeTemplate := fun _ =>
  .element "pre" [] [.spec (.wrap "code")]

/-- Images show their attributes and have no content. -/
def image : NodeTemplate := fun node =>
  .element "img" (node.attrs.pick ["src", "alt", "title"]) []

/-- Where a numbered list starts, unless it is at one. -/
def listStart (order : Option Json) : List (String × Json) :=
  match order with
  | none => []
  | some order => if order.nat? = some 1 then [] else [("start", order)]

/-- Numbered lists hold their items. -/
def orderedList : NodeTemplate := fun node =>
  .element "ol" (listStart (node.attrs.get? "order")) [.hole]

/-- Links hold the marked content. -/
def link : MarkTemplate := fun mark _ =>
  .element "a" (mark.attrs.pick ["href", "title"]) [.hole]

/-- The integer one. -/
def one : Json := .num (.int 1)

/-- The node types in order. The first one is the type of documents, which has no template. -/
def nodes : List NodeDecl :=
  [⟨nodeType "doc" "block+" none, none⟩,
    ⟨nodeType "paragraph" "inline*" "block", some fun _ => .wrap "p"⟩,
    ⟨nodeType "blockquote" "block+" "block", some fun _ => .wrap "blockquote"⟩,
    ⟨nodeType "horizontal_rule" none "block", some fun _ => .element "hr" [] []⟩,
    ⟨{ nodeType "heading" "inline*" "block" with attrs := [⟨"level", some one⟩] }, some heading⟩,
    ⟨nodeType "code_block" "text*" "block", some codeBlock⟩,
    ⟨nodeType "text" none "inline", none⟩,
    ⟨⟨"image", none, "inline", true, [⟨"src", none⟩, ⟨"alt", some .null⟩, ⟨"title", some .null⟩]⟩,
      some image⟩,
    ⟨⟨"hard_break", none, "inline", true, []⟩, some fun _ => .element "br" [] []⟩,
    ⟨{ nodeType "ordered_list" "list_item+" "block" with attrs := [⟨"order", some one⟩] },
      some orderedList⟩,
    ⟨nodeType "bullet_list" "list_item+" "block", some fun _ => .wrap "ul"⟩,
    ⟨nodeType "list_item" "paragraph block*" none, some fun _ => .wrap "li"⟩]

/-- A mark type that holds the marked content in an element. -/
def wrapping (name tag : String) : MarkDecl :=
  ⟨⟨name, 0, true, []⟩, some fun _ _ => .wrap tag⟩

/-- The mark types in the order of their ranks. -/
def marks : List MarkDecl :=
  [⟨⟨"link", 0, true, [⟨"href", none⟩, ⟨"title", some .null⟩]⟩, some link⟩,
    wrapping "em" "em",
    wrapping "italic" "em",
    wrapping "strong" "strong",
    wrapping "bold" "strong",
    wrapping "code" "code"]

/-- The basic schema. Its declarations have a text type and no name twice. -/
def schema : Schema := ⟨nodes, rankFrom 0 marks⟩

/-- The declarations follow the rules for schemas. -/
theorem ofDecls_nodes_marks : Schema.ofDecls nodes marks = .ok schema := by
  rfl

end RichDoc.BasicSchema
