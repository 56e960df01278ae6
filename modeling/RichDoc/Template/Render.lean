import RichDoc.Build.Graft
import RichDoc.Html.Name
import RichDoc.Template.Guard
import RichDoc.Template.Spec

/-!
# Rendering a description

A description is built from the outside in: an element is created, its attributes are set in order,
and then each child is built and appended. Rules are checked where they are met, so what was built
before a failure stays. The typed form and the JSON form obey the same rules; in the JSON form an
array that is stored in the attributes of a source is refused before its element is created.
-/

namespace RichDoc

/-- Work that builds a tree and may fail. What was built before a failure stays. -/
abbrev Building (σ : Type) := ExceptT Error (StateM σ)

/-- A rendered description: its outermost node, and the node that takes the content. -/
structure Rendered (η : Type) where
  root : η
  hole : Option η
  deriving DecidableEq, Repr

variable {σ η : Type} [TreeBuilder σ η]

/-- Refuse a description. -/
def malformed {α : Type} (fault : TemplateFault) : Building σ α :=
  throw (.malformedTemplate fault)

/-- Check a tag. -/
def checkTag (tag : String) : Building σ Unit :=
  if Html.isTagName tag then pure () else malformed (.badTag tag)

/-- The text of an attribute value: strings as they are, null as nothing, all else as JSON. -/
def attributeText : Json → String
  | .str s => s
  | .null => ""
  | value => value.print

/-- Set attributes in order. An empty name sets nothing. -/
def setAttributes (node : η) : List (String × Json) → Building σ Unit
  | [] => pure ()
  | (key, value) :: rest => do
    if key.isEmpty then setAttributes node rest
    else if Html.isAttrName key then
      modify fun s => TreeBuilder.setAttribute s node key (attributeText value)
      setAttributes node rest
    else malformed (.badAttrName key)

/-- Create a text. -/
def renderText (text : String) : Building σ (Rendered η) := do
  let node ← modifyGet fun s => TreeBuilder.createText s text
  return ⟨node, none⟩

/-- Append a rendered child and take over its hole. -/
def adopt (parent : η) (hole : Option η) (child : Rendered η) : Building σ (Option η) := do
  match child.hole, hole with
  | some _, some _ => malformed .severalHoles
  | inner, outer =>
    modify fun s => TreeBuilder.appendChild s parent child.root
    return inner.or outer

/-- What an item of a JSON element can be. -/
inductive ItemKind where
  | hole
  | template
  | other
  deriving DecidableEq, Repr

/-- The number zero marks the hole; strings and arrays are templates. -/
def itemKind : Json → ItemKind
  | .num n => if n.toNat? = some 0 then .hole else .other
  | .str _ => .template
  | .arr _ => .template
  | _ => .other

/-- Whether a place is among the recorded ones. -/
def isBlocked (blocked : List Suspicious) : Option Origin → Bool
  | none => false
  | some origin => blocked.any fun found => found.contains origin

mutual

/-- Render a JSON description. -/
def renderJson (blocked : List Suspicious) (origin : Option Origin) :
    Json → Building σ (Rendered η)
  | .str text => renderText text
  | .arr (.str tag :: .obj attrs :: items) => do
    checkTag tag
    if isBlocked blocked origin then throw (.unsafeTemplate tag)
    let node ← modifyGet fun s => TreeBuilder.createElement s tag
    setAttributes node attrs
    renderItems blocked origin tag node (items.length == 1) 2 none items
  | .arr (.str tag :: items) => do
    checkTag tag
    if isBlocked blocked origin then throw (.unsafeTemplate tag)
    let node ← modifyGet fun s => TreeBuilder.createElement s tag
    renderItems blocked origin tag node (items.length == 1) 1 none items
  | .arr _ => malformed .noTag
  | value => malformed (.noTemplate value)

/-- Render the items of a JSON element, the first of which has an index in its array. -/
def renderItems (blocked : List Suspicious) (origin : Option Origin) (tag : String) (node : η)
    (alone : Bool) (index : Nat) (hole : Option η) : List Json → Building σ (Rendered η)
  | [] => pure ⟨node, hole⟩
  | item :: rest =>
    match itemKind item with
    | .hole => if alone then pure ⟨node, some node⟩ else malformed .misplacedHole
    | .template => do
      let child ← renderJson blocked (origin.map fun place => place.item index) item
      let hole ← adopt node hole child
      renderItems blocked origin tag node alone (index + 1) hole rest
    | .other => malformed (.badChild item tag)

end

/-- Copy a tree that exists, with the node that takes the content. -/
def renderTree (tree : Subtree) (hole : Option Link) : Building σ (Rendered η) := do
  let (root, hole) ← modifyGet fun s => graft s hole tree.tree
  return ⟨root, hole⟩

/-- Whether a node is an element of a tree. -/
def isElementOf (tree : Subtree) (hole : Link) : Bool :=
  (tree.dom.descendants tree.root).any (fun id => some id == hole) && tree.dom.isElement hole

mutual

/-- Render a description. -/
def renderSpec (blocked : List Suspicious) : Spec → Building σ (Rendered η)
  | .text text => renderText text
  | .tree tree => renderTree tree none
  | .treeWithHole tree none => renderTree tree none
  | .treeWithHole tree (some hole) =>
    if isElementOf tree hole then renderTree tree (some hole) else malformed (.foreignHole hole)
  | .element tag attrs children => do
    checkTag tag
    let node ← modifyGet fun s => TreeBuilder.createElement s tag
    setAttributes node attrs
    renderChildren blocked node (children.length == 1) none children
  | .json value origin => renderJson blocked origin value

/-- Render the children of an element. -/
def renderChildren (blocked : List Suspicious) (node : η) (alone : Bool) (hole : Option η) :
    List SpecChild → Building σ (Rendered η)
  | [] => pure ⟨node, hole⟩
  | .hole :: _ => if alone then pure ⟨node, some node⟩ else malformed .misplacedHole
  | .spec spec :: rest => do
    let child ← renderSpec blocked spec
    let hole ← adopt node hole child
    renderChildren blocked node alone hole rest

end

/-- Render a description without sources to guard against. -/
def Spec.render (spec : Spec) : Building σ (Rendered η) := renderSpec [] spec

/-- What is built together with the scans that are kept. -/
structure Guarded (σ : Type) where
  guard : Guard
  tree : σ

/-- Work on a guarded tree. -/
abbrev Guarding (σ : Type) := Building (Guarded σ)

/-- Building under the guard's eyes. -/
def Guarding.lift {α : Type} (work : Building σ α) : Guarding σ α := fun ⟨guard, tree⟩ =>
  let (result, tree) := work tree
  (result, ⟨guard, tree⟩)

/-- Render a description and refuse arrays that are stored in the attributes of the sources. -/
def Spec.renderGuarded (spec : Spec) (sources : List Attrs) : Guarding σ (Rendered η) := do
  let blocked ← modifyGet fun ⟨guard, built⟩ =>
    let (blocked, guard) := guard.collect sources
    (blocked, ⟨guard, built⟩)
  Guarding.lift (renderSpec blocked spec)

end RichDoc
