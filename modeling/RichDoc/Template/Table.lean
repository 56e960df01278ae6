import RichDoc.Doc.Node
import RichDoc.Template.Spec

/-!
# Templates and tables of templates

A template is a function of the node or the mark that it renders. A table holds templates by the
names of types; putting one replaces an earlier one of the same name.
-/

namespace RichDoc

/-- How a node is rendered. -/
abbrev NodeTemplate := Node → Spec

/-- How a mark is rendered. The flag tells whether the marked node stands in a line of text. -/
abbrev MarkTemplate := Mark → Bool → Spec

/-- Templates by the names of types. -/
structure TemplateTable where
  nodes : List (String × NodeTemplate)
  marks : List (String × MarkTemplate)

/-- Put an entry into a list of named entries. -/
def putNamed {α : Type} (name : String) (value : α) : List (String × α) → List (String × α)
  | [] => [(name, value)]
  | (n, v) :: rest => if n = name then (n, value) :: rest else (n, v) :: putNamed name value rest

namespace TemplateTable

/-- No templates. -/
def empty : TemplateTable := ⟨[], []⟩

/-- Put the template of a node type. -/
def insertNode (table : TemplateTable) (name : String) (template : NodeTemplate) :
    TemplateTable :=
  { table with nodes := putNamed name template table.nodes }

/-- Put the template of a mark type. -/
def insertMark (table : TemplateTable) (name : String) (template : MarkTemplate) :
    TemplateTable :=
  { table with marks := putNamed name template table.marks }

/-- The template of a node type. -/
def node? (table : TemplateTable) (name : String) : Option NodeTemplate := table.nodes.lookup name

/-- The template of a mark type. -/
def mark? (table : TemplateTable) (name : String) : Option MarkTemplate := table.marks.lookup name

/-- Whether a node type has a template. -/
def hasNode (table : TemplateTable) (name : String) : Bool := (table.node? name).isSome

/-- Whether a mark type has a template. -/
def hasMark (table : TemplateTable) (name : String) : Bool := (table.mark? name).isSome

/-- Names in ascending order. -/
def sortedNames {α : Type} (entries : List (String × α)) : List String :=
  (entries.map Prod.fst).mergeSort fun a b => a ≤ b

/-- The form of a table in diagnostics. -/
def debugText (table : TemplateTable) : String :=
  Text.recordText "TemplateTable"
    [("nodes", Text.bracketed ((sortedNames table.nodes).map Text.quoted)),
      ("marks", Text.bracketed ((sortedNames table.marks).map Text.quoted))]

end TemplateTable

/-- The template of text nodes: their text. -/
def textTemplate : NodeTemplate := fun node => .text (node.text.getD "")

end RichDoc
