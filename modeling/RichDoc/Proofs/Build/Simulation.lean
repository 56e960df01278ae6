import RichDoc.Proofs.Template.Elements
import Mathlib.Data.Option.Basic

/-!
# Building on two sides

Rendering never reads a tree back. If the five building operations keep a correspondence between
what is built on two sides, so does all work that is made of them: what is built corresponds after
the work too, and the results correspond or are the same failure. What corresponds may be nothing at
all, which says that the outcome of rendering does not depend on what was built before.
-/

namespace RichDoc

/-- How two sides correspond: which states do, and which nodes do in corresponding states. -/
structure Correspondence (σ τ η θ : Type) where
  states : σ → τ → Prop
  nodes : σ → τ → η → θ → Prop

/-- Two outcomes correspond when both are results that do, or both are the same failure. -/
inductive Outcomes {α β : Type} (R : α → β → Prop) : Except Error α → Except Error β → Prop where
  | ok {a b} : R a b → Outcomes R (.ok a) (.ok b)
  | error (error : Error) : Outcomes R (.error error) (.error error)

/-- Outcomes that correspond do so in a weaker sense. -/
theorem Outcomes.imp {α β : Type} {R S : α → β → Prop} (himp : ∀ a b, R a b → S a b)
    {first : Except Error α} {second : Except Error β} (h : Outcomes R first second) :
    Outcomes S first second := by
  cases h with
  | ok h => exact .ok (himp _ _ h)
  | error error => exact .error error

namespace Correspondence

variable {σ τ η θ α β γ δ : Type} (c : Correspondence σ τ η θ)

/-- States that correspond after others, in which the nodes that corresponded still do. -/
structure Later (s : σ) (t : τ) (s' : σ) (t' : τ) : Prop where
  states : c.states s' t'
  nodes : ∀ {x : η} {y : θ}, c.nodes s t x y → c.nodes s' t' x y

/-- Rendered descriptions that correspond. -/
structure Rendering (s : σ) (t : τ) (first : Rendered η) (second : Rendered θ) : Prop where
  root : c.nodes s t first.root second.root
  hole : Option.Rel (c.nodes s t) first.hole second.hole

/-- Work on one side runs alongside work on the other: what is built corresponds afterwards, and so
do the outcomes. -/
def Alongside (R : σ → τ → α → β → Prop) (work : Building σ α) (other : Building τ β) (s : σ)
    (t : τ) : Prop :=
  c.Later s t (work s).2 (other t).2 ∧
    Outcomes (R (work s).2 (other t).2) (work s).1 (other t).1

variable {c} {s s' s'' : σ} {t t' t'' : τ} {R : σ → τ → α → β → Prop}

namespace Later

/-- Nothing is done on either side. -/
theorem refl (h : c.states s t) : c.Later s t s t := ⟨h, id⟩

/-- Both sides go on twice. -/
theorem trans (h : c.Later s t s' t') (h' : c.Later s' t' s'' t'') : c.Later s t s'' t'' :=
  ⟨h'.states, fun hn => h'.nodes (h.nodes hn)⟩

/-- Nodes that may be there still correspond later. -/
theorem option (h : c.Later s t s' t') {first : Option η} {second : Option θ}
    (ho : Option.Rel (c.nodes s t) first second) : Option.Rel (c.nodes s' t') first second := by
  cases ho with
  | some hn => exact .some (h.nodes hn)
  | none => exact .none

end Later

/-- The later of two reported nodes corresponds on both sides. -/
theorem option_or {first first' : Option η} {second second' : Option θ}
    (h : Option.Rel (c.nodes s t) first second) (h' : Option.Rel (c.nodes s t) first' second') :
    Option.Rel (c.nodes s t) (first.or first') (second.or second') := by
  cases h with
  | some hn => exact .some hn
  | none => exact h'

namespace Alongside

/-- Both sides give back results that correspond. -/
theorem pure {a : α} {b : β} (h : c.states s t) (hr : R s t a b) :
    c.Alongside R (Pure.pure a) (Pure.pure b) s t :=
  ⟨.refl h, .ok hr⟩

/-- Both sides fail alike. -/
theorem throw (h : c.states s t) (error : Error) :
    c.Alongside R (MonadExcept.throw error) (MonadExcept.throw error) s t :=
  ⟨.refl h, .error error⟩

/-- Both sides change their states alike. -/
theorem modify {f : σ → σ} {g : τ → τ} (h : c.Later s t (f s) (g t)) :
    c.Alongside (fun _ _ _ _ => True) (modify f : Building σ PUnit)
      (modify g : Building τ PUnit) s t :=
  ⟨h, .ok trivial⟩

/-- Both sides change their states alike, with results that correspond. -/
theorem modifyGet {f : σ → α × σ} {g : τ → β × τ} (h : c.Later s t (f s).2 (g t).2)
    (hr : R (f s).2 (g t).2 (f s).1 (g t).1) :
    c.Alongside R (modifyGet f : Building σ α) (modifyGet g : Building τ β) s t :=
  ⟨h, .ok hr⟩

/-- Work that succeeds on the left succeeds on the right. -/
theorem ok_right {work : Building σ α} {other : Building τ β} {a : α}
    (h : c.Alongside R work other s t) (hw : work s = (.ok a, s')) :
    ∃ b t', other t = (.ok b, t') ∧ c.Later s t s' t' ∧ R s' t' a b := by
  obtain ⟨hlater, hout⟩ := h
  rcases ho : other t with ⟨second, t'⟩
  rw [hw, ho] at hlater hout
  cases hout with
  | ok hr => exact ⟨_, t', rfl, hlater, hr⟩

/-- Work that succeeds on the right succeeds on the left. -/
theorem ok_left {work : Building σ α} {other : Building τ β} {b : β}
    (h : c.Alongside R work other s t) (ho : other t = (.ok b, t')) :
    ∃ a s', work s = (.ok a, s') ∧ c.Later s t s' t' ∧ R s' t' a b := by
  obtain ⟨hlater, hout⟩ := h
  rcases hw : work s with ⟨first, s'⟩
  rw [hw, ho] at hlater hout
  cases hout with
  | ok hr => exact ⟨_, s', rfl, hlater, hr⟩

/-- What follows on both sides goes on from states that correspond, after a result that does. -/
theorem bind {S : σ → τ → γ → δ → Prop} {work : Building σ α} {other : Building τ β}
    {next : α → Building σ γ} {after : β → Building τ δ} (h : c.Alongside R work other s t)
    (hn : ∀ a b s' t', c.Later s t s' t' → R s' t' a b →
      c.Alongside S (next a) (after b) s' t') :
    c.Alongside S (work >>= next) (other >>= after) s t := by
  obtain ⟨hlater, hout⟩ := h
  rcases hw : work s with ⟨first, s'⟩
  rcases ho : other t with ⟨second, t'⟩
  rw [hw, ho] at hlater hout
  unfold Alongside
  cases hout with
  | ok hr =>
    rw [Building.bind_apply_ok hw, Building.bind_apply_ok ho]
    obtain ⟨hlater', hout'⟩ := hn _ _ s' t' hlater hr
    exact ⟨hlater.trans hlater', hout'⟩
  | error error =>
    rw [Building.bind_apply_error hw, Building.bind_apply_error ho]
    exact ⟨hlater, .error error⟩

end Alongside

end Correspondence

/-- A correspondence that the building operations keep. What they create corresponds. -/
structure Pairing (σ τ : Type) {η θ : Type} [TreeBuilder σ η] [TreeBuilder τ θ] extends
    Correspondence σ τ η θ where
  createElement {s : σ} {t : τ} (tag : String) : states s t →
    toCorrespondence.Later s t (TreeBuilder.createElement s tag).2
        (TreeBuilder.createElement t tag).2 ∧
      nodes (TreeBuilder.createElement s tag).2 (TreeBuilder.createElement t tag).2
        (TreeBuilder.createElement s tag).1 (TreeBuilder.createElement t tag).1
  createText {s : σ} {t : τ} (text : String) : states s t →
    toCorrespondence.Later s t (TreeBuilder.createText s text).2
        (TreeBuilder.createText t text).2 ∧
      nodes (TreeBuilder.createText s text).2 (TreeBuilder.createText t text).2
        (TreeBuilder.createText s text).1 (TreeBuilder.createText t text).1
  createFragment {s : σ} {t : τ} : states s t →
    toCorrespondence.Later s t (TreeBuilder.createFragment s).2
        (TreeBuilder.createFragment t).2 ∧
      nodes (TreeBuilder.createFragment s).2 (TreeBuilder.createFragment t).2
        (TreeBuilder.createFragment s).1 (TreeBuilder.createFragment t).1
  setAttribute {s : σ} {t : τ} {x : η} {y : θ} (key value : String) : states s t →
    nodes s t x y → toCorrespondence.Later s t (TreeBuilder.setAttribute s x key value)
      (TreeBuilder.setAttribute t y key value)
  appendChild {s : σ} {t : τ} {x x' : η} {y y' : θ} : states s t → nodes s t x y →
    nodes s t x' y' → toCorrespondence.Later s t (TreeBuilder.appendChild s x x')
      (TreeBuilder.appendChild t y y')

namespace Pairing

variable {σ τ η θ : Type} [TreeBuilder σ η] [TreeBuilder τ θ] (p : Pairing σ τ)
  {s : σ} {t : τ} {x : η} {y : θ}

/-- Nothing needs to correspond. -/
def anything : Pairing σ τ where
  states _ _ := True
  nodes _ _ _ _ := True
  createElement _ _ := ⟨⟨trivial, id⟩, trivial⟩
  createText _ _ := ⟨⟨trivial, id⟩, trivial⟩
  createFragment _ := ⟨⟨trivial, id⟩, trivial⟩
  setAttribute _ _ _ _ := ⟨trivial, id⟩
  appendChild _ _ _ := ⟨trivial, id⟩

/-! ### The parts of rendering -/

/-- Both sides check a tag alike. -/
theorem checkTag (h : p.states s t) (tag : String) :
    p.Alongside (fun _ _ _ _ => True) (checkTag tag) (checkTag tag) s t := by
  unfold RichDoc.checkTag
  split
  · exact .pure h trivial
  · exact .throw h _

/-- Both sides set attributes alike, and stop at the same bad name. -/
theorem setAttributes (attrs : List (String × Json)) {s : σ} {t : τ} (h : p.states s t)
    (hn : p.nodes s t x y) :
    p.Alongside (fun _ _ _ _ => True) (setAttributes x attrs) (setAttributes y attrs) s t := by
  induction attrs generalizing s t with
  | nil => exact .pure h trivial
  | cons attr rest ih =>
    obtain ⟨key, value⟩ := attr
    rw [RichDoc.setAttributes, RichDoc.setAttributes]
    split
    · exact ih h hn
    · split
      · refine .bind (.modify (p.setAttribute key (attributeText value) h hn)) ?_
        intro _ _ s' t' hlater _
        exact ih hlater.states (hlater.nodes hn)
      · exact .throw h _

/-- Both sides create a text. -/
theorem renderText (h : p.states s t) (text : String) :
    p.Alongside p.Rendering (renderText text) (renderText text) s t := by
  obtain ⟨hlater, hn⟩ := p.createText text h
  refine .bind (R := p.nodes) (.modifyGet hlater hn) ?_
  intro node node' s' t' hlater hn
  exact .pure hlater.states ⟨hn, .none⟩

/-- A child is adopted on both sides, or brings a second hole on both. -/
theorem adopt {hole : Option η} {hole' : Option θ} {child : Rendered η} {child' : Rendered θ}
    (h : p.states s t) (hn : p.nodes s t x y) (hh : Option.Rel (p.nodes s t) hole hole')
    (hc : p.Rendering s t child child') :
    p.Alongside (fun s t => Option.Rel (p.nodes s t)) (adopt x hole child)
      (adopt y hole' child') s t := by
  have happend := p.appendChild h hn hc.root
  have htaken := happend.option (p.option_or hc.hole hh)
  obtain ⟨root, inner⟩ := child
  obtain ⟨root', inner'⟩ := child'
  have hinner : Option.Rel (p.nodes s t) inner inner' := hc.hole
  cases hinner with
  | none => exact ⟨happend, .ok htaken⟩
  | some _ =>
    cases hh with
    | none => exact ⟨happend, .ok htaken⟩
    | some _ => exact .throw h _

/-! ### Grafting -/

/-- Both sides copy attributes alike. -/
theorem buildAttributes (attrs : List Attribute) {s : σ} {t : τ} (h : p.states s t)
    (hn : p.nodes s t x y) :
    p.Later s t (buildAttributes s x attrs) (buildAttributes t y attrs) := by
  unfold RichDoc.buildAttributes
  induction attrs generalizing s t with
  | nil => exact .refl h
  | cons a rest ih =>
    have hset := p.setAttribute a.name.localName a.value h hn
    exact hset.trans (ih hset.states (hset.nodes hn))

/-- Both sides copy a node without its children. -/
theorem graftRoot (h : p.states s t) (data : Option NodeData) :
    p.Later s t (graftRoot s data).2 (graftRoot t data).2 ∧
      p.nodes (graftRoot s data).2 (graftRoot t data).2 (graftRoot s data).1
        (graftRoot t data).1 := by
  unfold RichDoc.graftRoot
  split
  · obtain ⟨hlater, hn⟩ := p.createElement (QualName.localName ‹_›) h
    have hattrs := p.buildAttributes ‹_› hlater.states hn
    exact ⟨hlater.trans hattrs, hattrs.nodes hn⟩
  · exact p.createText _ h
  · exact p.createFragment h
  · exact p.createFragment h
  · exact p.createFragment h

/-- A node is reported on both sides or on none. -/
theorem option_ite {here : Prop} [Decidable here] (hn : p.nodes s t x y) :
    Option.Rel (p.nodes s t) (if here then some x else none) (if here then some y else none) := by
  split
  · exact .some hn
  · exact .none

mutual

/-- A tree is copied on both sides. -/
theorem graft (mark : Option Link) : (tree : Tree) → {s : σ} → {t : τ} → p.states s t →
    p.Later s t (graft s mark tree).2 (graft t mark tree).2 ∧
      p.Rendering (graft s mark tree).2 (graft t mark tree).2
        ⟨(graft s mark tree).1.1, (graft s mark tree).1.2⟩
        ⟨(graft t mark tree).1.1, (graft t mark tree).1.2⟩
  | .node id data children, s, t, h => by
    rw [RichDoc.graft, RichDoc.graft]
    obtain ⟨hroot, hcopy⟩ := p.graftRoot h (some data)
    obtain ⟨hbelow, hfound⟩ := graftChildren mark hcopy children hroot.states
    have hcopy' := hbelow.nodes hcopy
    exact ⟨hroot.trans hbelow, hcopy', p.option_or hfound (p.option_ite hcopy')⟩
  | .absent link, s, t, h => by
    rw [RichDoc.graft, RichDoc.graft]
    obtain ⟨hroot, hcopy⟩ := p.graftRoot h none
    exact ⟨hroot, hcopy, p.option_ite hcopy⟩

/-- Both sides copy the children of a node, and find the marked one alike. -/
theorem graftChildren (mark : Option Link) {s : σ} {t : τ} {parent : η} {parent' : θ}
    (hp : p.nodes s t parent parent') : (trees : List Tree) → p.states s t →
    p.Later s t (graftChildren s mark parent trees).2 (graftChildren t mark parent' trees).2 ∧
      Option.Rel (p.nodes (graftChildren s mark parent trees).2
          (graftChildren t mark parent' trees).2)
        (graftChildren s mark parent trees).1 (graftChildren t mark parent' trees).1
  | [], h => ⟨.refl h, .none⟩
  | tree :: rest, h => by
    rw [RichDoc.graftChildren, RichDoc.graftChildren]
    split
    · exact graftChildren mark hp rest h
    · obtain ⟨hcopy, hmade⟩ := graft mark tree h
      have happend := p.appendChild hcopy.states (hcopy.nodes hp) hmade.root
      have hhere := hcopy.trans happend
      obtain ⟨hbelow, hfound⟩ := graftChildren mark (hhere.nodes hp) rest happend.states
      exact ⟨hhere.trans hbelow,
        p.option_or hfound ((happend.trans hbelow).option hmade.hole)⟩

end

/-- Both sides render a tree that exists. -/
theorem renderTree (h : p.states s t) (tree : Subtree) (hole : Option Link) :
    p.Alongside p.Rendering (renderTree tree hole) (renderTree tree hole) s t := by
  obtain ⟨hlater, hmade⟩ := p.graft hole tree.tree h
  exact ⟨hlater, .ok hmade⟩

/-! ### Rendering -/

/-- An element is built on both sides if it is filled on both. -/
theorem buildElement (h : p.states s t) (tag : String) (refused : Bool)
    (attrs : List (String × Json)) {fill : η → Building σ (Rendered η)}
    {fill' : θ → Building τ (Rendered θ)}
    (hf : ∀ x y s' t', p.states s' t' → p.nodes s' t' x y →
      p.Alongside p.Rendering (fill x) (fill' y) s' t') :
    p.Alongside p.Rendering (buildElement tag refused attrs fill)
      (buildElement tag refused attrs fill') s t := by
  unfold RichDoc.buildElement
  refine .bind (p.checkTag h tag) fun _ _ s₁ t₁ h₁ _ => ?_
  split
  · exact .throw h₁.states _
  · obtain ⟨hlater, hn⟩ := p.createElement tag h₁.states
    refine .bind (R := p.nodes) (.modifyGet hlater hn) fun x y s₂ t₂ h₂ hn => ?_
    refine .bind (p.setAttributes attrs h₂.states hn) fun _ _ s₃ t₃ h₃ _ => ?_
    exact hf x y s₃ t₃ h₃.states (h₃.nodes hn)

/-- A rendered child is adopted on both sides, and what follows goes on from there. -/
theorem child {hole : Option η} {hole' : Option θ} {work : Building σ (Rendered η)}
    {work' : Building τ (Rendered θ)} {next : Option η → Building σ (Rendered η)}
    {next' : Option θ → Building τ (Rendered θ)} (hn : p.nodes s t x y)
    (hh : Option.Rel (p.nodes s t) hole hole')
    (hw : p.Alongside p.Rendering work work' s t)
    (hnext : ∀ taken taken' s' t', p.states s' t' → p.nodes s' t' x y →
      Option.Rel (p.nodes s' t') taken taken' →
      p.Alongside p.Rendering (next taken) (next' taken') s' t') :
    p.Alongside p.Rendering (work >>= fun child => RichDoc.adopt x hole child >>= next)
      (work' >>= fun child => RichDoc.adopt y hole' child >>= next') s t := by
  refine hw.bind fun child child' s₁ t₁ h₁ hc => ?_
  have hadopt := p.adopt h₁.states (h₁.nodes hn) (h₁.option hh) hc
  refine hadopt.bind fun taken taken' s₂ t₂ h₂ ht => ?_
  exact hnext taken taken' s₂ t₂ h₂.states (h₂.nodes (h₁.nodes hn)) ht

/-- The place for content is taken on both sides or refused on both. -/
theorem hole (h : p.states s t) (hn : p.nodes s t x y) (alone : Bool) :
    p.Alongside p.Rendering
      (if alone then pure ⟨x, some x⟩ else malformed .misplacedHole)
      (if alone then pure ⟨y, some y⟩ else malformed .misplacedHole) s t := by
  split
  · exact .pure h ⟨hn, .some hn⟩
  · exact .throw h _

mutual

/-- A JSON description is rendered on both sides. -/
theorem renderJson (blocked : List Suspicious) (origin : Option Origin) (value : Json) {s : σ}
    {t : τ} (h : p.states s t) :
    p.Alongside p.Rendering (renderJson blocked origin value) (renderJson blocked origin value)
      s t := by
  match value with
  | .str text =>
    rw [RichDoc.renderJson, RichDoc.renderJson]
    exact p.renderText h text
  | .arr (.str tag :: items) =>
    rw [renderJson_array, renderJson_array]
    exact p.buildElement h tag _ _ fun x y s' t' h' hn =>
      renderItems blocked origin tag _ _ (arrayParts items).2.2 h' hn .none
  | .arr [] | .arr (.null :: _) | .arr (.bool _ :: _) | .arr (.num _ :: _) | .arr (.arr _ :: _)
  | .arr (.obj _ :: _) => exact .throw h _
  | .null | .bool _ | .num _ | .obj _ => exact .throw h _
termination_by sizeOf value
decreasing_by
  have := sizeOf_arrayParts items
  simp only [Json.arr.sizeOf_spec, List.cons.sizeOf_spec]
  omega

/-- Both sides render the items of a JSON element alike. -/
theorem renderItems (blocked : List Suspicious) (origin : Option Origin) (tag : String)
    (alone : Bool) (index : Nat) (items : List Json) {x : η} {y : θ} {hole : Option η}
    {hole' : Option θ} {s : σ} {t : τ} (h : p.states s t) (hn : p.nodes s t x y)
    (hh : Option.Rel (p.nodes s t) hole hole') :
    p.Alongside p.Rendering (renderItems blocked origin tag x alone index hole items)
      (renderItems blocked origin tag y alone index hole' items) s t := by
  match items with
  | [] =>
    rw [RichDoc.renderItems, RichDoc.renderItems]
    exact .pure h ⟨hn, hh⟩
  | item :: rest =>
    rw [RichDoc.renderItems, RichDoc.renderItems]
    cases itemKind item with
    | hole => exact p.hole h hn alone
    | template =>
      exact p.child hn hh (renderJson blocked _ item h) fun taken taken' s' t' h' hn' ht =>
        renderItems blocked origin tag alone (index + 1) rest h' hn' ht
    | other => exact .throw h _
termination_by sizeOf items

end

mutual

/-- A description is rendered on both sides. -/
theorem renderSpec (blocked : List Suspicious) : (spec : Spec) → {s : σ} → {t : τ} →
    p.states s t →
    p.Alongside p.Rendering (renderSpec blocked spec) (renderSpec blocked spec) s t
  | .text text, s, t, h => by
    rw [RichDoc.renderSpec, RichDoc.renderSpec]
    exact p.renderText h text
  | .tree tree, s, t, h => by
    rw [RichDoc.renderSpec, RichDoc.renderSpec]
    exact p.renderTree h tree none
  | .treeWithHole tree none, s, t, h => by
    rw [RichDoc.renderSpec, RichDoc.renderSpec]
    exact p.renderTree h tree none
  | .treeWithHole tree (some hole), s, t, h => by
    rw [RichDoc.renderSpec, RichDoc.renderSpec]
    split
    · exact p.renderTree h tree (some hole)
    · exact .throw h _
  | .element tag attrs children, s, t, h => by
    rw [renderSpec_element, renderSpec_element]
    exact p.buildElement h tag false attrs fun x y s' t' h' hn =>
      renderChildren blocked _ children h' hn .none
  | .json value origin, s, t, h => by
    rw [RichDoc.renderSpec, RichDoc.renderSpec]
    exact p.renderJson blocked origin value h

/-- Both sides render the children of a typed element alike. -/
theorem renderChildren (blocked : List Suspicious) (alone : Bool) {x : η} {y : θ} :
    (children : List SpecChild) → {hole : Option η} → {hole' : Option θ} → {s : σ} → {t : τ} →
    p.states s t → p.nodes s t x y → Option.Rel (p.nodes s t) hole hole' →
    p.Alongside p.Rendering (renderChildren blocked x alone hole children)
      (renderChildren blocked y alone hole' children) s t
  | [], _, _, s, t, h, hn, hh => by
    rw [RichDoc.renderChildren, RichDoc.renderChildren]
    exact .pure h ⟨hn, hh⟩
  | .hole :: _, _, _, s, t, h, hn, _ => by
    rw [RichDoc.renderChildren, RichDoc.renderChildren]
    exact p.hole h hn alone
  | .spec spec :: rest, _, _, s, t, h, hn, hh => by
    rw [RichDoc.renderChildren, RichDoc.renderChildren]
    exact p.child hn hh (renderSpec blocked spec h) fun taken taken' s' t' h' hn' ht =>
      renderChildren blocked alone rest h' hn' ht

end

end Pairing

end RichDoc
