import RichDoc.Proofs.Running

/-!
# What every building call keeps

A relation between an earlier and a later state that every building call keeps is kept by all work
that is made of building calls. On a tree whose calls are recorded, one such relation is that the
earlier calls are the first of the later ones.
-/

namespace RichDoc

/-- A relation between states that building calls keep. -/
structure Progress {σ η : Type} [TreeBuilder σ η] (R : σ → σ → Prop) : Prop where
  refl : ∀ s, R s s
  trans : ∀ {s t u}, R s t → R t u → R s u
  createElement : ∀ s tag, R s (TreeBuilder.createElement s tag).2
  createText : ∀ s text, R s (TreeBuilder.createText s text).2
  createFragment : ∀ s, R s (TreeBuilder.createFragment s).2
  setAttribute : ∀ s node key value, R s (TreeBuilder.setAttribute s node key value)
  appendChild : ∀ s parent child, R s (TreeBuilder.appendChild s parent child)

namespace Progress

variable {σ η : Type} [TreeBuilder σ η] {R : σ → σ → Prop}

/-- Checking a tag makes no call. -/
theorem checkTag (h : Progress R) (tag : String) (s : σ) :
    R s ((checkTag tag : Building σ Unit) s).2 := by
  unfold RichDoc.checkTag
  split <;> exact h.refl s

/-- Each attribute is one call at most. -/
theorem setAttributes (h : Progress R) (node : η) (attrs : List (String × Json)) (s : σ) :
    R s ((setAttributes node attrs : Building σ Unit) s).2 := by
  induction attrs generalizing s with
  | nil => exact h.refl s
  | cons attr rest ih =>
    obtain ⟨key, value⟩ := attr
    rw [RichDoc.setAttributes]
    split
    · exact ih s
    · split
      · rw [Building.bind_apply_ok (Building.modify_apply _ _)]
        exact h.trans (h.setAttribute s node key _) (ih _)
      · exact h.refl s

/-- A child is appended by one call. -/
theorem adopt (h : Progress R) (parent : η) (hole : Option η) (child : Rendered η) (s : σ) :
    R s (adopt parent hole child s).2 := by
  rw [adopt_apply]
  split
  · exact h.refl s
  · exact h.appendChild s parent child.root

/-- Each attribute of a copied element is one call. -/
theorem buildAttributes (h : Progress R) (node : η) (attrs : List Attribute) (s : σ) :
    R s (buildAttributes s node attrs) := by
  unfold RichDoc.buildAttributes
  induction attrs generalizing s with
  | nil => exact h.refl s
  | cons a rest ih => exact h.trans (h.setAttribute s node a.name.localName a.value) (ih _)

/-- The root of a copied tree is made by one call and given its attributes. -/
theorem graftRoot (h : Progress R) (data : Option NodeData) (s : σ) :
    R s (graftRoot s data).2 := by
  unfold RichDoc.graftRoot
  split
  · exact h.trans (h.createElement s _) (h.buildAttributes _ _ _)
  · exact h.createText s _
  · exact h.createFragment s
  · exact h.createFragment s
  · exact h.createFragment s

mutual

/-- A tree is copied from its root downwards. -/
theorem graft (h : Progress R) (mark : Option Link) : (tree : Tree) → (s : σ) →
    R s (graft s mark tree).2
  | .node id data children, s => by
    rw [RichDoc.graft]
    exact h.trans (h.graftRoot (some data) s) (graftChildren h mark _ children _)
  | .absent link, s => by
    rw [RichDoc.graft]
    exact h.graftRoot none s

/-- The copies of the children are appended one by one. -/
theorem graftChildren (h : Progress R) (mark : Option Link) (parent : η) :
    (trees : List Tree) → (s : σ) → R s (graftChildren s mark parent trees).2
  | [], s => h.refl s
  | tree :: rest, s => by
    rw [RichDoc.graftChildren]
    split
    · exact graftChildren h mark parent rest s
    · exact h.trans (graft h mark tree s)
        (h.trans (h.appendChild _ parent _) (graftChildren h mark parent rest _))

end

end Progress

/-- A building call, with the node that a creating call gave. -/
inductive BuildCall (η : Type) where
  | element (tag : String) (made : η)
  | text (text : String) (made : η)
  | fragment (made : η)
  | attribute (node : η) (key value : String)
  | append (parent child : η)

/-- A tree together with the calls that were made on it. -/
structure Traced (σ η : Type) where
  tree : σ
  calls : List (BuildCall η)

/-- Calls are passed on and recorded. -/
instance {σ η : Type} [TreeBuilder σ η] : TreeBuilder (Traced σ η) η where
  createElement s tag :=
    let (node, tree) := TreeBuilder.createElement s.tree tag
    (node, ⟨tree, s.calls ++ [.element tag node]⟩)
  createText s text :=
    let (node, tree) := TreeBuilder.createText s.tree text
    (node, ⟨tree, s.calls ++ [.text text node]⟩)
  createFragment s :=
    let (node, tree) := TreeBuilder.createFragment s.tree
    (node, ⟨tree, s.calls ++ [.fragment node]⟩)
  setAttribute s node key value :=
    ⟨TreeBuilder.setAttribute s.tree node key value, s.calls ++ [.attribute node key value]⟩
  appendChild s parent child :=
    ⟨TreeBuilder.appendChild s.tree parent child, s.calls ++ [.append parent child]⟩

/-- Recorded calls are never taken back. -/
theorem progress_calls {σ η : Type} [TreeBuilder σ η] :
    Progress (σ := Traced σ η) fun s t => s.calls <+: t.calls where
  refl s := List.prefix_refl s.calls
  trans h h' := h.trans h'
  createElement _ _ := List.prefix_append _ _
  createText _ _ := List.prefix_append _ _
  createFragment _ := List.prefix_append _ _
  setAttribute _ _ _ _ := List.prefix_append _ _
  appendChild _ _ _ := List.prefix_append _ _

end RichDoc
