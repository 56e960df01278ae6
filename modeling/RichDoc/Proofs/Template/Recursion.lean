import RichDoc.Proofs.Template.Elements

/-!
# The recursion of rendering

Both forms of a description are rendered by the same few parts: texts and copied trees, elements
that are filled child by child, and refusals. What holds of work that ends with each of these parts
holds of every rendering, whether it succeeds or fails.
-/

namespace RichDoc

variable {σ η : Type} [TreeBuilder σ η]

/-- Rules for the parts of rendering: what is made of a description between two states, when an
element is ready to take more children, and what filling it does. -/
structure RenderRules (made : σ → Except Error (Rendered η) → σ → Prop)
    (ready : σ → η → Option η → Prop)
    (filled : η → σ → Except Error (Rendered η) → σ → Prop) : Prop where
  text (s : σ) (text : String) : made s (renderText text s).1 (renderText text s).2
  tree (s : σ) (tree : Subtree) (hole : Option Link) :
    made s (renderTree tree hole s).1 (renderTree tree hole s).2
  refused (s : σ) {error : Error} : error.isTemplateError = true → made s (.error error) s
  element (s : σ) (tag : String) (refused : Bool) (attrs : List (String × Json))
    (fill : η → Building σ (Rendered η)) :
    (∀ node t, ready t node none → filled node t (fill node t).1 (fill node t).2) →
    made s (buildElement tag refused attrs fill s).1 (buildElement tag refused attrs fill s).2
  done {s : σ} {node : η} {hole : Option η} : ready s node hole →
    filled node s (.ok ⟨node, hole⟩) s
  hole {s : σ} {node : η} {hole : Option η} : ready s node hole →
    filled node s (.ok ⟨node, some node⟩) s
  stopped {s : σ} {node : η} {hole : Option η} {error : Error} : ready s node hole →
    error.isTemplateError = true → filled node s (.error error) s
  child {s : σ} {node : η} {hole : Option η} {work : Building σ (Rendered η)}
    {next : Option η → Building σ (Rendered η)} : ready s node hole →
    made s (work s).1 (work s).2 →
    (∀ taken t, ready t node taken → filled node t (next taken t).1 (next taken t).2) →
    filled node s ((work >>= fun child => adopt node hole child >>= next) s).1
      ((work >>= fun child => adopt node hole child >>= next) s).2

namespace RenderRules

variable {made : σ → Except Error (Rendered η) → σ → Prop} {ready : σ → η → Option η → Prop}
  {filled : η → σ → Except Error (Rendered η) → σ → Prop}

/-- The place for content is taken if it is the only child. -/
theorem hole_ite (h : RenderRules made ready filled) {s : σ} {node : η} {hole : Option η}
    (hr : ready s node hole) (alone : Bool) :
    filled node s
      ((if alone then pure ⟨node, some node⟩ else malformed .misplacedHole :
        Building σ (Rendered η)) s).1
      ((if alone then pure ⟨node, some node⟩ else malformed .misplacedHole :
        Building σ (Rendered η)) s).2 := by
  split
  · exact h.hole hr
  · exact h.stopped hr rfl

mutual

/-- The rules hold of every JSON description. -/
theorem renderJson (h : RenderRules made ready filled) (blocked : List Suspicious)
    (origin : Option Origin) (value : Json) (s : σ) :
    made s (renderJson blocked origin value s).1 (renderJson blocked origin value s).2 := by
  match value with
  | .str text =>
    rw [RichDoc.renderJson]
    exact h.text s text
  | .arr (.str tag :: items) =>
    rw [renderJson_array]
    exact h.element s tag _ _ _ fun node t hr =>
      renderItems h blocked origin tag node _ _ none (arrayParts items).2.2 t hr
  | .arr [] | .arr (.null :: _) | .arr (.bool _ :: _) | .arr (.num _ :: _) | .arr (.arr _ :: _)
  | .arr (.obj _ :: _) => exact h.refused s rfl
  | .null | .bool _ | .num _ | .obj _ => exact h.refused s rfl
termination_by sizeOf value
decreasing_by
  have := sizeOf_arrayParts items
  simp only [Json.arr.sizeOf_spec, List.cons.sizeOf_spec]
  omega

theorem renderItems (h : RenderRules made ready filled) (blocked : List Suspicious)
    (origin : Option Origin) (tag : String) (node : η) (alone : Bool) (index : Nat)
    (hole : Option η) (items : List Json) (s : σ) (hr : ready s node hole) :
    filled node s (renderItems blocked origin tag node alone index hole items s).1
      (renderItems blocked origin tag node alone index hole items s).2 := by
  match items with
  | [] =>
    rw [RichDoc.renderItems]
    exact h.done hr
  | item :: rest =>
    rw [RichDoc.renderItems]
    cases itemKind item with
    | hole => exact h.hole_ite hr alone
    | template =>
      exact h.child hr (renderJson h blocked _ item s) fun taken t hr' =>
        renderItems h blocked origin tag node alone (index + 1) taken rest t hr'
    | other => exact h.stopped hr rfl
termination_by sizeOf items

end

mutual

/-- The rules hold of every description. -/
theorem renderSpec (h : RenderRules made ready filled) (blocked : List Suspicious) :
    (spec : Spec) → (s : σ) →
    made s (renderSpec blocked spec s).1 (renderSpec blocked spec s).2
  | .text text, s => by
    rw [RichDoc.renderSpec]
    exact h.text s text
  | .tree tree, s => by
    rw [RichDoc.renderSpec]
    exact h.tree s tree none
  | .treeWithHole tree none, s => by
    rw [RichDoc.renderSpec]
    exact h.tree s tree none
  | .treeWithHole tree (some hole), s => by
    rw [RichDoc.renderSpec]
    split
    · exact h.tree s tree (some hole)
    · exact h.refused s rfl
  | .element tag attrs children, s => by
    rw [renderSpec_element]
    exact h.element s tag false attrs _ fun node t hr =>
      renderChildren h blocked node _ none children t hr
  | .json value origin, s => by
    rw [RichDoc.renderSpec]
    exact h.renderJson blocked origin value s

theorem renderChildren (h : RenderRules made ready filled) (blocked : List Suspicious) (node : η)
    (alone : Bool) (hole : Option η) : (children : List SpecChild) → (s : σ) →
    ready s node hole →
    filled node s (renderChildren blocked node alone hole children s).1
      (renderChildren blocked node alone hole children s).2
  | [], s, hr => by
    rw [RichDoc.renderChildren]
    exact h.done hr
  | .hole :: _, s, hr => by
    rw [RichDoc.renderChildren]
    exact h.hole_ite hr alone
  | .spec spec :: rest, s, hr => by
    rw [RichDoc.renderChildren]
    exact h.child hr (renderSpec h blocked spec s) fun taken t hr' =>
      renderChildren h blocked node alone taken rest t hr'

end

end RenderRules

end RichDoc
