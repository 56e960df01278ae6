import RichDoc.Proofs.Template.Denotation

/-!
# Wrappers and leaves

Two kinds of description are common. A wrapper is an element inside another, the innermost of which
takes the content; a leaf is one text or one element, and takes none. Both can be rendered wherever
their names can be printed, under any guard. A filled wrapper says what its content says, and a leaf
says its text.
-/

namespace RichDoc

namespace Spec

/-- The tag and the attributes of an element can be printed. -/
def Printable (tag : String) (attrs : List (String × Json)) : Prop :=
  Html.isTagName tag = true ∧ ∀ attr ∈ attrs, attr.1 = "" ∨ Html.isAttrName attr.1 = true

/-- Elements inside each other, the innermost of which takes the content. Something holds of each
of them, whatever the content is. -/
inductive Wraps (p : NodeData → List Outline → Prop) : Spec → Prop where
  | hole {tag attrs} : Printable tag attrs →
      Outline.Around p (.element (.html tag) (shownAttributes attrs)) →
      Wraps p (.element tag attrs [.hole])
  | around {tag attrs inner} : Printable tag attrs →
      Outline.Around p (.element (.html tag) (shownAttributes attrs)) → Wraps p inner →
      Wraps p (.element tag attrs [.spec inner])

/-- A text, or an element that takes no content. -/
inductive Tells (p : NodeData → List Outline → Prop) : Spec → String → Prop where
  | text {text} : p (.text text) [] → Tells p (.text text) text
  | element {tag attrs} : Printable tag attrs →
      p (.element (.html tag) (shownAttributes attrs)) [] → Tells p (.element tag attrs []) ""

variable {p : NodeData → List Outline → Prop} {spec : Spec} {text : String}

/-! ### What a wrapper denotes -/

/-- A wrapper follows the rules for descriptions. -/
theorem Wraps.parts (h : spec.Wraps p) : ∀ part ∈ spec.parts, part.Regular ∧ part.Sound := by
  induction h with
  | hole hprint _ =>
    rw [Spec.parts, SpecChild.partsOf, SpecChild.partsOf]
    refine List.forall_mem_singleton.mpr ⟨trivial, hprint.1, hprint.2, fun _ => rfl⟩
  | around hprint _ _ ih =>
    rw [Spec.parts, SpecChild.partsOf, SpecChild.partsOf, List.append_nil]
    refine List.forall_mem_cons.mpr ⟨⟨trivial, hprint.1, hprint.2, fun hhole => ?_⟩, ih⟩
    cases List.mem_singleton.mp hhole

theorem Wraps.holes_eq (h : spec.Wraps p) : spec.holes = 1 := by
  induction h with
  | hole _ _ => rfl
  | @around tag attrs inner _ _ _ ih =>
    have hinner : SpecChild.innerHoles [.spec inner] = inner.holes := SpecChild.innerHoles_spec ..
    rw [Spec.holes_element, hinner, ih]
    rfl

theorem Wraps.frame (h : spec.Wraps p) : spec.outline.Frame p := by
  induction h with
  | hole _ hdata =>
    rw [Spec.outline, SpecChild.outlines, SpecChild.outlines]
    exact .hole hdata
  | around _ hdata _ ih =>
    rw [Spec.outline, SpecChild.outlines, SpecChild.outlines]
    exact .around hdata ih

/-! ### What a leaf denotes -/

/-- A leaf follows the rules for descriptions. -/
theorem Tells.parts (h : spec.Tells p text) : ∀ part ∈ spec.parts, part.Regular ∧ part.Sound := by
  cases h with
  | text _ => exact List.forall_mem_singleton.mpr ⟨trivial, trivial⟩
  | element hprint _ =>
    rw [Spec.parts, SpecChild.partsOf]
    exact List.forall_mem_singleton.mpr ⟨trivial, hprint.1, hprint.2, nofun⟩

theorem Tells.holes_eq (h : spec.Tells p text) : spec.holes = 0 := by
  cases h <;> rfl

theorem Tells.each (h : spec.Tells p text) : spec.outline.Each p := by
  cases h with
  | text hdata =>
    rw [Spec.outline, Outline.Each]
    exact ⟨hdata, trivial⟩
  | element _ hdata =>
    rw [Spec.outline, SpecChild.outlines, Outline.Each]
    exact ⟨hdata, trivial⟩

theorem Tells.text_outline (h : spec.Tells p text) : spec.outline.text = text := by
  cases h with
  | text _ =>
    rw [Spec.outline, Outline.text, Outline.texts, String.append_empty]
    rfl
  | element _ _ => rfl

end Spec

/-! ### Rendering under the guard -/

section

variable {σ η : Type} [TreeBuilder σ η]

/-- The guard refuses some arrays, and then the description is rendered. -/
theorem renderGuarded_apply (spec : Spec) (sources : List Attrs) (state : Guarded σ) :
    (spec.renderGuarded sources : Guarding σ (Rendered η)) state =
      ((renderSpec (state.guard.collect sources).1 spec state.tree).1,
        ⟨(state.guard.collect sources).2,
          (renderSpec (state.guard.collect sources).1 spec state.tree).2⟩) := rfl

/-- A description that follows the rules can be rendered under any guard, and its hole is
reported. -/
theorem exists_renderGuarded {spec : Spec}
    (hparts : ∀ part ∈ spec.parts, part.Regular ∧ part.Sound) (hholes : spec.holes ≤ 1)
    (sources : List Attrs) (state : Guarded σ) :
    ∃ (rendered : Rendered η) (after : Guarded σ),
      spec.renderGuarded sources state = (.ok rendered, after) ∧
        holeCount rendered.hole = spec.holes := by
  have hregular := fun part hpart => (hparts part hpart).1
  obtain ⟨rendered, t, h⟩ := exists_renderSpec (η := η) (state.guard.collect sources).1 spec
    hregular (fun part hpart => (hparts part hpart).2) hholes state.tree
  refine ⟨rendered, ⟨(state.guard.collect sources).2, t⟩, ?_,
    (sound_of_renderSpec spec hregular h).2⟩
  rw [renderGuarded_apply, h]

variable {p : NodeData → List Outline → Prop} {spec : Spec} {text : String}

/-- A wrapper can be rendered, and it takes content. -/
theorem Spec.Wraps.exists_renderGuarded (h : spec.Wraps p) (sources : List Attrs)
    (state : Guarded σ) :
    ∃ (root hole : η) (after : Guarded σ),
      spec.renderGuarded sources state = (.ok ⟨root, some hole⟩, after) := by
  obtain ⟨⟨root, hole⟩, after, hrun, hcount⟩ :=
    RichDoc.exists_renderGuarded (η := η) h.parts (Nat.le_of_eq h.holes_eq) sources state
  cases hole with
  | none =>
    rw [h.holes_eq] at hcount
    cases hcount
  | some hole => exact ⟨root, hole, after, hrun⟩

/-- A leaf can be rendered, and it takes no content. -/
theorem Spec.Tells.exists_renderGuarded (h : spec.Tells p text) (sources : List Attrs)
    (state : Guarded σ) :
    ∃ (root : η) (after : Guarded σ),
      spec.renderGuarded sources state = (.ok ⟨root, none⟩, after) := by
  obtain ⟨⟨root, hole⟩, after, hrun, hcount⟩ := RichDoc.exists_renderGuarded (η := η) h.parts
    (Nat.le_trans (Nat.le_of_eq h.holes_eq) (Nat.zero_le 1)) sources state
  rw [h.holes_eq, holeCount_eq_zero] at hcount
  obtain rfl : hole = none := hcount
  exact ⟨root, after, hrun⟩

end

section

variable {p : NodeData → List Outline → Prop} {spec : Spec} {text : String} {sources : List Attrs}
  {state after : Guarded Dom} {rendered : Rendered NodeId}

/-- A description that is rendered under the guard has the outline that it denotes. -/
theorem Dom.renderGuarded_makes (hregular : ∀ part ∈ spec.parts, part.Regular)
    (hw : state.tree.WellFormed) (h : spec.renderGuarded sources state = (.ok rendered, after)) :
    Makes state.tree after.tree rendered spec.outline := by
  rw [renderGuarded_apply] at h
  obtain ⟨hresult, rfl⟩ := Prod.mk.inj h
  exact renderSpec_makes spec hregular hw (Prod.ext hresult rfl)

/-- A rendered wrapper is a tree that takes content. -/
theorem Spec.Wraps.makes (h : spec.Wraps p) (hw : state.tree.WellFormed)
    (hrun : spec.renderGuarded sources state = (.ok rendered, after)) :
    ∃ root hole, rendered = ⟨root, some hole⟩ ∧
      Dom.Makes state.tree after.tree ⟨root, some hole⟩ spec.outline := by
  obtain ⟨root, hole, t, heq⟩ := h.exists_renderGuarded (η := NodeId) sources state
  rw [hrun] at heq
  obtain rfl : rendered = ⟨root, some hole⟩ := Except.ok.inj (Prod.mk.inj heq).1
  exact ⟨root, hole, rfl,
    Dom.renderGuarded_makes (fun part hpart => (h.parts part hpart).1) hw hrun⟩

/-- A rendered leaf is a tree that takes no content. -/
theorem Spec.Tells.makes (h : spec.Tells p text) (hw : state.tree.WellFormed)
    (hrun : spec.renderGuarded sources state = (.ok rendered, after)) :
    ∃ root, rendered = ⟨root, none⟩ ∧
      Dom.Makes state.tree after.tree ⟨root, none⟩ spec.outline := by
  obtain ⟨root, t, heq⟩ := h.exists_renderGuarded (η := NodeId) sources state
  rw [hrun] at heq
  obtain rfl : rendered = ⟨root, none⟩ := Except.ok.inj (Prod.mk.inj heq).1
  exact ⟨root, rfl, Dom.renderGuarded_makes (fun part hpart => (h.parts part hpart).1) hw hrun⟩

end

end RichDoc
