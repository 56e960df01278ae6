import RichDoc.Template.Table

/-!
# Schemas

A schema declares the types that a document may use, in order, each with an optional template. It
has a type for text, which has no attributes, and no name is declared twice among the node types or
among the mark types. Nodes and marks made by a schema have exactly the declared attributes.
-/

namespace RichDoc

/-- The declaration of a node type. -/
structure NodeDecl where
  type : NodeType
  template : Option NodeTemplate

/-- The declaration of a mark type. Its rank follows from its position. -/
structure MarkDecl where
  type : MarkType
  template : Option MarkTemplate

/-- Declared types in order. -/
structure Schema where
  nodes : List NodeDecl
  marks : List MarkDecl

/-- The first name that stands in the list a second time. -/
def firstRepeated : List String → List String → Option String
  | _, [] => none
  | seen, name :: rest => if seen.contains name then some name else firstRepeated (name :: seen) rest

/-- Number the mark types from a rank on. -/
def rankFrom (rank : Nat) : List MarkDecl → List MarkDecl
  | [] => []
  | decl :: rest => { decl with type := { decl.type with rank := rank } } :: rankFrom (rank + 1) rest

namespace Schema

/-- The declared node type of a name. -/
def nodeType? (schema : Schema) (name : String) : Option NodeType :=
  (schema.nodes.find? fun decl => decl.type.name == name).map NodeDecl.type

/-- The declared mark type of a name. -/
def markType? (schema : Schema) (name : String) : Option MarkType :=
  (schema.marks.find? fun decl => decl.type.name == name).map MarkDecl.type

/-- The node type that is declared first. -/
def topNodeType? (schema : Schema) : Option NodeType := schema.nodes.head?.map NodeDecl.type

/-- A schema of declarations, if they follow the rules. -/
def ofDecls (nodes : List NodeDecl) (marks : List MarkDecl) : Except Error Schema :=
  match firstRepeated [] (nodes.map fun decl => decl.type.name) with
  | some name => .error (.invalidSchema (.duplicateNodeType name))
  | none =>
    match firstRepeated [] (marks.map fun decl => decl.type.name) with
    | some name => .error (.invalidSchema (.duplicateMarkType name))
    | none =>
      let schema : Schema := ⟨nodes, rankFrom 0 marks⟩
      match schema.nodeType? textTypeName with
      | none => .error (.invalidSchema .noTextType)
      | some text =>
        if text.attrs.isEmpty then .ok schema
        else .error (.invalidSchema .textTypeWithAttributes)

/-- The templates that a schema declares, with one for text unless there is one. -/
def templates (schema : Schema) : TemplateTable :=
  let nodes := schema.nodes.filterMap fun decl =>
    decl.template.map fun template => (decl.type.name, template)
  let marks := schema.marks.filterMap fun decl =>
    decl.template.map fun template => (decl.type.name, template)
  let table : TemplateTable := ⟨nodes, marks⟩
  if table.hasNode textTypeName then table else table.insertNode textTypeName textTemplate

/-- The attributes of a new node or mark: each declared one as given or else by default. -/
def resolveFields (typeName : String) (given : Option Json.Fields) :
    List AttrDecl → Json.Fields → Except Error Json.Fields
  | [], built => .ok built
  | decl :: rest, built =>
    match (given.bind fun fields => fields.get? decl.name).or decl.default with
    | some value => resolveFields typeName given rest (built.insert decl.name value)
    | none => .error (.missingAttribute typeName decl.name)

/-- The attribute map of a new node or mark. -/
def resolveAttrs (typeName : String) (decls : List AttrDecl) (given : Option Json.Fields) :
    Making Attrs := do
  let fields ← (resolveFields typeName given decls [] : Except Error Json.Fields)
  Attrs.make fields

/-- A new mark. -/
def mark (schema : Schema) (typeName : String) (attrs : Option Json.Fields) : Making Mark :=
  match schema.markType? typeName with
  | none => throw (.unknownMarkType typeName)
  | some type => do
    let attrs ← resolveAttrs typeName type.attrs attrs
    return ⟨type, attrs⟩

/-- A new text node, which cannot be empty. -/
def text (schema : Schema) (text : String) (marks : List Mark) : Making Node :=
  if text.isEmpty then throw (.invalidDocument .emptyText)
  else
    match schema.nodeType? textTypeName with
    | none => throw (.unknownNodeType textTypeName)
    | some type => Node.makeText type text marks

/-- A new node that is not a text node. -/
def node (schema : Schema) (typeName : String) (attrs : Option Json.Fields) (content : Fragment)
    (marks : List Mark) : Making Node :=
  match schema.nodeType? typeName with
  | none => throw (.unknownNodeType typeName)
  | some type => do
    if type.isText then throw (.invalidDocument .textTypeAsNode)
    let attrs ← resolveAttrs typeName type.attrs attrs
    if type.isLeaf && !content.isEmpty then
      throw (.invalidDocument (.leafWithContent typeName))
    return Node.make type attrs content marks

end Schema

/-! ## Diagnostics -/

/-- The form of a declared attribute. -/
def AttrDecl.debugText (decl : AttrDecl) : String :=
  "(" ++ Text.quoted decl.name ++ ", " ++
    Text.recordText "AttrSpec" [("default", Text.optionText Json.debugText decl.default)] ++ ")"

/-- The form of the declaration of a node type. -/
def NodeDecl.debugText (decl : NodeDecl) : String :=
  Text.recordText "NodeSpec"
    [("content", Text.optionText Text.quoted decl.type.content),
      ("group", Text.optionText Text.quoted decl.type.group),
      ("inline", Text.boolText decl.type.declaredInline),
      ("attrs", Text.bracketed (decl.type.attrs.map AttrDecl.debugText)),
      ("to_dom", Text.boolText decl.template.isSome)]

/-- The form of the declaration of a mark type. -/
def MarkDecl.debugText (decl : MarkDecl) : String :=
  Text.recordText "MarkSpec"
    [("attrs", Text.bracketed (decl.type.attrs.map AttrDecl.debugText)),
      ("spanning", Text.boolText decl.type.spanning),
      ("to_dom", Text.boolText decl.template.isSome)]

end RichDoc
