import RichDoc.Html.Printer
import RichDoc.Schema
import RichDoc.Template.Render

/-!
# Serializing documents

A node is built through its template, and its content goes into the hole that the template left.
Siblings share wrappers: the marks of each node are compared with the wrappers that are open, those
that agree from the outermost on stay open, the others are closed, and the remaining marks of the
node are opened. Marks without a template are passed over.
-/

namespace RichDoc

/-- What happens to a mark whose template fails. -/
inductive MarkPolicy where
  /-- The mark is left out on that node. -/
  | lenient
  /-- A failure that is the template's fault ends the work; other marks are left out. -/
  | strict
  deriving DecidableEq, Repr

/-- Whether a failure of a mark's template ends the work. -/
def MarkPolicy.stopsAt : MarkPolicy → Error → Bool
  | .lenient, _ => false
  | .strict, error => error.isTemplateError

/-- A wrapper that is open: its mark, and the node to which it was appended. -/
structure OpenMark (η : Type) where
  mark : Mark
  parent : η
  deriving Repr

/-- The open wrappers, outermost first, and the node that takes what comes next. -/
structure OpenMarks (η : Type) where
  marks : List (OpenMark η)
  top : η
  deriving Repr

/-- How far the marks of a node agree with the open wrappers: the wrappers that stay open, the ones
to close, and the marks that are left to open. -/
def agreeing {η : Type} (table : TemplateTable) :
    List (OpenMark η) → List Mark → List (OpenMark η) × List (OpenMark η) × List Mark
  | opened, [] => ([], opened, [])
  | [], marks => ([], [], marks)
  | outer :: inner, mark :: marks =>
    if table.hasMark mark.typeName then
      if mark.same outer.mark && outer.mark.isSpanning then
        let (kept, closed, left) := agreeing table inner marks
        (outer :: kept, closed, left)
      else ([], outer :: inner, mark :: marks)
    else agreeing table (outer :: inner) marks

/-- Close wrappers. The outermost of them was appended to the node that takes what comes next. -/
def closing {η : Type} (kept closed : List (OpenMark η)) (top : η) : OpenMarks η :=
  match closed with
  | [] => ⟨kept, top⟩
  | outermost :: _ => ⟨kept, outermost.parent⟩

variable {σ η : Type} [TreeBuilder σ η]

/-- Append a node. -/
def appendTo (parent child : η) : Guarding σ Unit :=
  modify fun ⟨guard, tree⟩ => ⟨guard, TreeBuilder.appendChild tree parent child⟩

/-- The outcome of some work. What it did stays, also when it failed. -/
def attempt {α : Type} (work : Guarding σ α) : Guarding σ (Except Error α) := fun state =>
  let (result, state) := work state
  (.ok result, state)

/-- Build the wrapper of a mark on a node, if its type has a template. -/
def renderMark (table : TemplateTable) (mark : Mark) (node : Node) :
    Guarding σ (Option (Rendered η)) :=
  match table.mark? mark.typeName with
  | none => pure none
  | some template => do
    let wrapper ← (template mark node.isInline).renderGuarded [mark.attrs, node.attrs]
    return some wrapper

/-- Open the wrappers of marks, each inside the one before. -/
def openMarks (table : TemplateTable) (policy : MarkPolicy) (node : Node) :
    List Mark → OpenMarks η → Guarding σ (OpenMarks η)
  | [], opened => pure opened
  | mark :: rest, opened => do
    match ← attempt (renderMark table mark node) with
    | .ok none => openMarks table policy node rest opened
    | .ok (some wrapper) =>
      appendTo opened.top wrapper.root
      openMarks table policy node rest
        ⟨opened.marks ++ [⟨mark, opened.top⟩], wrapper.hole.getD wrapper.root⟩
    | .error error =>
      if policy.stopsAt error then throw error
      else openMarks table policy node rest opened

mutual

/-- Build a node through its template and fill its hole with its content. Its marks are left
to the caller. -/
def renderNode (table : TemplateTable) (policy : MarkPolicy) : Node → Guarding σ η
  | ⟨type, attrs, content, marks, text⟩ =>
    match table.node? type.name with
    | none => throw (.missingTemplate type.name)
    | some template => do
      let rendered ← (template ⟨type, attrs, content, marks, text⟩).renderGuarded [attrs]
      match rendered.hole with
      | none => return rendered.root
      | some hole =>
        if type.isLeaf then throw (.leafContentHole type.name)
        serializeNodes table policy ⟨[], hole⟩ content
        return rendered.root

/-- Build siblings one after another, sharing wrappers. -/
def serializeNodes (table : TemplateTable) (policy : MarkPolicy) (opened : OpenMarks η) :
    List Node → Guarding σ Unit
  | [] => pure ()
  | node :: rest => do
    let (kept, closed, left) := agreeing table opened.marks node.marks
    let opened ← openMarks table policy node left (closing kept closed opened.top)
    let inner ← renderNode table policy node
    appendTo opened.top inner
    serializeNodes table policy opened rest

end

/-- Build a fragment into a node, or into a new container, and tell which node holds it. -/
def serializeFragment (table : TemplateTable) (policy : MarkPolicy) (fragment : Fragment)
    (target : Option η) : Guarding σ η := do
  let target ← match target with
    | some target => pure target
    | none => modifyGet fun ⟨guard, tree⟩ =>
        let (node, tree) := TreeBuilder.createFragment tree
        (node, ⟨guard, tree⟩)
  serializeNodes table policy ⟨[], target⟩ fragment
  return target

/-- Put a node into the wrappers of marks, the last mark innermost. -/
def wrapMarks (table : TemplateTable) (node : Node) : List Mark → η → Guarding σ η
  | [], inner => pure inner
  | mark :: rest, inner => do
    let inner ← wrapMarks table node rest inner
    match ← renderMark table mark node with
    | none => return inner
    | some wrapper =>
      appendTo (wrapper.hole.getD wrapper.root) inner
      return wrapper.root

/-- Build one node inside the wrappers of its own marks. A mark whose template fails ends the
work. -/
def serializeNode (table : TemplateTable) (policy : MarkPolicy) (node : Node) : Guarding σ η := do
  let inner ← renderNode table policy node
  wrapMarks table node node.marks inner

/-- Templates together with the scans that their guard keeps. -/
structure Serializer where
  templates : TemplateTable
  guard : Guard

namespace Serializer

/-- A serializer that has not scanned anything yet. -/
def new (templates : TemplateTable) : Serializer := ⟨templates, .empty⟩

/-- A serializer with the templates of a schema. -/
def ofSchema (schema : Schema) : Serializer := new schema.templates

/-- Run work on a tree with the serializer's guard. -/
def run {α : Type} (serializer : Serializer) (work : Guarding σ α) (tree : σ) :
    Except Error α × σ × Serializer :=
  let (result, state) := work ⟨serializer.guard, tree⟩
  (result, state.tree, { serializer with guard := state.guard })

/-- A fragment in a container of a new store. -/
def fragmentToDom (serializer : Serializer) (policy : MarkPolicy) (fragment : Fragment) :
    Except Error Subtree :=
  let work : Guarding Dom NodeId := serializeFragment serializer.templates policy fragment none
  let (result, dom, _) := serializer.run work Dom.empty
  result.map fun root => ⟨dom, some root⟩

/-- A node in a new store. -/
def nodeToDom (serializer : Serializer) (policy : MarkPolicy) (node : Node) :
    Except Error Subtree :=
  let work : Guarding Dom NodeId := serializeNode serializer.templates policy node
  let (result, dom, _) := serializer.run work Dom.empty
  result.map fun root => ⟨dom, some root⟩

/-- The HTML of a fragment. -/
def fragmentToHtml (serializer : Serializer) (policy : MarkPolicy) (style : Html.Style)
    (fragment : Fragment) : Except Error String :=
  (serializer.fragmentToDom policy fragment).map fun built =>
    Html.innerHtml style built.dom built.root

/-- The HTML of a node. -/
def nodeToHtml (serializer : Serializer) (policy : MarkPolicy) (style : Html.Style)
    (node : Node) : Except Error String :=
  (serializer.nodeToDom policy node).map fun built => Html.toHtml style built.dom built.root

/-- The form of a serializer in diagnostics. -/
def debugText (serializer : Serializer) : String :=
  Text.recordText "DomSerializer"
    [("templates", serializer.templates.debugText), ("guard", serializer.guard.debugText)]

end Serializer

end RichDoc
