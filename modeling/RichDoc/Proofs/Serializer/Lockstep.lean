import RichDoc.Proofs.Build.Simulation
import RichDoc.Proofs.Build.Trace
import RichDoc.Proofs.Serializer.Report
import RichDoc.Proofs.Template.Flagged
import RichDoc.Proofs.Template.Wrapping

/-!
# The serializer on two sides

Serializing is made of rendering and appending, so it runs alongside itself on every two sides whose
building operations correspond. The guards on the two sides may keep different scans, as long as
what they keep is right and they are asked about maps that were made. Two uses of this need no more
than a choice of what corresponds: a relation that every building call keeps is kept by serializing,
and whether serializing succeeds does not depend on what was built before.
-/

namespace RichDoc

namespace Correspondence

variable {σ τ η θ : Type}

/-- Guarded trees correspond when the trees do and their guards are related. -/
def guarded (c : Correspondence σ τ η θ) (g : GuardPairing) :
    Correspondence (Guarded σ) (Guarded τ) η θ where
  states s t := c.states s.tree t.tree ∧ g.related s.guard t.guard
  nodes s t := c.nodes s.tree t.tree

/-- Open wrappers that correspond, level by level. -/
structure Opening (c : Correspondence σ τ η θ) (s : σ) (t : τ) (first : OpenMarks η)
    (second : OpenMarks θ) : Prop where
  marks : List.Forall₂
    (fun one other => one.mark = other.mark ∧ c.nodes s t one.parent other.parent)
    first.marks second.marks
  top : c.nodes s t first.top second.top

/-- Open wrappers still correspond when both sides have gone on. -/
theorem Opening.later {c : Correspondence σ τ η θ} {s s' : σ} {t t' : τ} {first : OpenMarks η}
    {second : OpenMarks θ} (h : c.Opening s t first second) (hlater : c.Later s t s' t') :
    c.Opening s' t' first second :=
  ⟨h.marks.imp fun _ _ ho => ⟨ho.1, hlater.nodes ho.2⟩, hlater.nodes h.top⟩

/-- Marks agree with corresponding wrappers equally far. -/
theorem forall₂_agreeing (table : TemplateTable) {r : η → θ → Prop} (marks : List Mark)
    {first : List (OpenMark η)} {second : List (OpenMark θ)}
    (h : List.Forall₂ (fun one other => one.mark = other.mark ∧ r one.parent other.parent) first
      second) :
    List.Forall₂ (fun one other => one.mark = other.mark ∧ r one.parent other.parent)
        (agreeing table first marks).1 (agreeing table second marks).1 ∧
      List.Forall₂ (fun one other => one.mark = other.mark ∧ r one.parent other.parent)
        (agreeing table first marks).2.1 (agreeing table second marks).2.1 ∧
      (agreeing table first marks).2.2 = (agreeing table second marks).2.2 := by
  induction marks generalizing first second with
  | nil =>
    rw [agreeing, agreeing]
    exact ⟨.nil, h, rfl⟩
  | cons mark marks ih =>
    cases h with
    | nil => exact ⟨.nil, .nil, rfl⟩
    | @cons one other inner inner' ho hi =>
      rw [agreeing, agreeing, ho.1]
      split
      · split
        · obtain ⟨hkept, hclosed, hleft⟩ := ih hi
          exact ⟨.cons ho hkept, hclosed, hleft⟩
        · exact ⟨.nil, .cons ho hi, rfl⟩
      · exact ih (.cons ho hi)

/-- Closing corresponding wrappers leads to corresponding nodes. -/
theorem opening_closing {c : Correspondence σ τ η θ} {s : σ} {t : τ}
    {kept closed : List (OpenMark η)} {kept' closed' : List (OpenMark θ)} {top : η} {top' : θ}
    (hkept : List.Forall₂
      (fun one other => one.mark = other.mark ∧ c.nodes s t one.parent other.parent) kept kept')
    (hclosed : List.Forall₂
      (fun one other => one.mark = other.mark ∧ c.nodes s t one.parent other.parent)
      closed closed')
    (htop : c.nodes s t top top') :
    c.Opening s t (closing kept closed top) (closing kept' closed' top') := by
  cases hclosed with
  | nil => exact ⟨hkept, htop⟩
  | cons ho _ => exact ⟨hkept, ho.2⟩

end Correspondence

namespace Pairing

variable {σ τ η θ : Type} [TreeBuilder σ η] [TreeBuilder τ θ] (p : Pairing σ τ)
  {g : GuardPairing} {s : Guarded σ} {t : Guarded τ}

open Correspondence

/-! ### The parts of serializing -/

/-- Both sides render a description alike. -/
theorem renderGuarded (h : (p.guarded g).states s t) (spec : Spec) {sources : List Attrs}
    (hm : ∀ attrs ∈ sources, g.maps attrs) :
    (p.guarded g).Alongside (p.guarded g).Rendering (spec.renderGuarded sources)
      (spec.renderGuarded sources) s t := by
  obtain ⟨hblocked, hagree⟩ := g.collect hm h.2
  obtain ⟨hlater, hout⟩ := p.renderSpec (s.guard.collect sources).1 spec h.1
  unfold Alongside
  rw [renderGuarded_apply, renderGuarded_apply, ← hblocked]
  refine ⟨⟨⟨hlater.states, hagree⟩, hlater.nodes⟩, ?_⟩
  exact hout.imp fun _ _ hr => ⟨hr.root, hr.hole⟩

/-- Both sides append nodes that correspond. -/
theorem appendTo {x x' : η} {y y' : θ} (h : (p.guarded g).states s t)
    (hn : (p.guarded g).nodes s t x y) (hn' : (p.guarded g).nodes s t x' y') :
    (p.guarded g).Alongside (fun _ _ _ _ => True) (appendTo x x') (appendTo y y') s t := by
  have hlater := p.appendChild h.1 hn hn'
  exact ⟨⟨⟨hlater.states, h.2⟩, hlater.nodes⟩, .ok trivial⟩

/-- An attempt tells on both sides how the work ended. -/
theorem attempt {α β : Type} {R : Guarded σ → Guarded τ → α → β → Prop} {work : Guarding σ α}
    {other : Guarding τ β} (h : (p.guarded g).Alongside R work other s t) :
    (p.guarded g).Alongside (fun s t => Outcomes (R s t)) (attempt work) (attempt other) s t :=
  ⟨h.1, .ok h.2⟩

/-- Both sides render the wrapper of a mark alike. -/
theorem renderMark (h : (p.guarded g).states s t) (table : TemplateTable) {mark : Mark}
    {node : Node} (hm : g.maps mark.attrs) (hn : g.maps node.attrs) :
    (p.guarded g).Alongside (fun s t => Option.Rel ((p.guarded g).Rendering s t))
      (renderMark table mark node) (renderMark table mark node) s t := by
  unfold RichDoc.renderMark
  cases table.mark? mark.typeName with
  | none => exact .pure h .none
  | some template =>
    have hmaps := List.forall_mem_cons.mpr ⟨hm, List.forall_mem_singleton.mpr hn⟩
    refine (p.renderGuarded h _ hmaps).bind fun wrapper wrapper' s' t' hlater hr => ?_
    exact .pure hlater.states (.some hr)

/-- The node that takes what a wrapper wraps. -/
theorem place {wrapper : Rendered η} {wrapper' : Rendered θ}
    (h : (p.guarded g).Rendering s t wrapper wrapper') :
    (p.guarded g).nodes s t (wrapper.hole.getD wrapper.root)
      (wrapper'.hole.getD wrapper'.root) := by
  obtain ⟨root, hole⟩ := wrapper
  obtain ⟨root', hole'⟩ := wrapper'
  have hroot : (p.guarded g).nodes s t root root' := h.root
  have hhole : Option.Rel ((p.guarded g).nodes s t) hole hole' := h.hole
  cases hhole with
  | some hn => exact hn
  | none => exact hroot

theorem openMarks (table : TemplateTable) (policy : MarkPolicy) {node : Node}
    (hn : g.maps node.attrs) {marks : List Mark} (hm : ∀ mark ∈ marks, g.maps mark.attrs)
    {opened : OpenMarks η} {opened' : OpenMarks θ} {s : Guarded σ} {t : Guarded τ}
    (h : (p.guarded g).states s t) (ho : (p.guarded g).Opening s t opened opened') :
    (p.guarded g).Alongside (p.guarded g).Opening (openMarks table policy node marks opened)
      (openMarks table policy node marks opened') s t := by
  induction marks generalizing opened opened' s t with
  | nil => exact .pure h ho
  | cons mark rest ih =>
    obtain ⟨hmark, hrest⟩ := List.forall_mem_cons.mp hm
    rw [RichDoc.openMarks, RichDoc.openMarks]
    refine (p.attempt (p.renderMark h table hmark hn)).bind fun first second s₁ t₁ h₁ hr => ?_
    cases hr with
    | error error =>
      dsimp only
      split
      · exact .throw h₁.states _
      · exact ih hrest h₁.states (ho.later h₁)
    | ok hr =>
      cases hr with
      | none => exact ih hrest h₁.states (ho.later h₁)
      | some hr =>
        have htop := h₁.nodes ho.top
        refine (p.appendTo h₁.states htop hr.root).bind fun _ _ s₂ t₂ h₂ _ => ?_
        refine ih hrest h₂.states ⟨?_, h₂.nodes (p.place hr)⟩
        have hmarks := ((ho.later h₁).later h₂).marks
        exact List.rel_append hmarks (.cons ⟨rfl, h₂.nodes htop⟩ .nil)

mutual

/-- A node is built on both sides. -/
theorem renderNode (table : TemplateTable) (policy : MarkPolicy) : (node : Node) →
    node.Maps g.maps → {s : Guarded σ} → {t : Guarded τ} → (p.guarded g).states s t →
    (p.guarded g).Alongside (p.guarded g).nodes (renderNode table policy node)
      (renderNode table policy node) s t
  | ⟨type, attrs, content, marks, text⟩, hm, s, t, h => by
    rw [RichDoc.renderNode, RichDoc.renderNode]
    cases table.node? type.name with
    | none => exact .throw h _
    | some template =>
      have hattrs := List.forall_mem_singleton.mpr hm.attrs
      refine (p.renderGuarded h _ hattrs).bind fun rendered rendered' s₁ t₁ h₁ hr => ?_
      obtain ⟨root, hole⟩ := rendered
      obtain ⟨root', hole'⟩ := rendered'
      have hroot : (p.guarded g).nodes s₁ t₁ root root' := hr.root
      have hhole : Option.Rel ((p.guarded g).nodes s₁ t₁) hole hole' := hr.hole
      cases hhole with
      | none => exact .pure h₁.states hroot
      | some hn =>
        dsimp only
        split
        · exact .throw h₁.states _
        · refine .bind (R := fun _ _ _ _ => True)
            (serializeNodes table policy content (fun _ hc => hm.content hc) h₁.states
              ⟨.nil, hn⟩) fun _ _ s₂ t₂ h₂ _ => ?_
          exact .pure h₂.states (h₂.nodes hroot)

/-- Siblings are built on both sides. -/
theorem serializeNodes (table : TemplateTable) (policy : MarkPolicy) : (nodes : List Node) →
    (∀ node ∈ nodes, node.Maps g.maps) → {opened : OpenMarks η} → {opened' : OpenMarks θ} →
    {s : Guarded σ} → {t : Guarded τ} →
    (p.guarded g).states s t → (p.guarded g).Opening s t opened opened' →
    (p.guarded g).Alongside (fun _ _ _ _ => True) (serializeNodes table policy opened nodes)
      (serializeNodes table policy opened' nodes) s t
  | [], _, _, _, s, t, h, _ => by
    rw [RichDoc.serializeNodes, RichDoc.serializeNodes]
    exact .pure h trivial
  | node :: rest, hm, opened, opened', s, t, h, ho => by
    obtain ⟨hnode, hrest⟩ := List.forall_mem_cons.mp hm
    obtain ⟨hkept, hclosed, hleft⟩ := forall₂_agreeing table node.marks ho.marks
    rw [RichDoc.serializeNodes, RichDoc.serializeNodes]
    dsimp only
    rw [← hleft]
    have hmarks : ∀ mark ∈ (agreeing table opened.marks node.marks).2.2, g.maps mark.attrs :=
      fun mark hmark => hnode.marks (mem_of_mem_agreeing table hmark)
    refine (p.openMarks table policy hnode.attrs hmarks h
      (opening_closing hkept hclosed ho.top)).bind fun open₁ open₁' s₁ t₁ h₁ ho₁ => ?_
    refine (renderNode table policy node hnode h₁.states).bind fun inner inner' s₂ t₂ h₂ hi => ?_
    have ho₂ := ho₁.later h₂
    refine (p.appendTo h₂.states ho₂.top hi).bind fun _ _ s₃ t₃ h₃ _ => ?_
    exact serializeNodes table policy rest hrest h₃.states (ho₂.later h₃)

end

/-- The node that takes a fragment. -/
theorem containerOf {target : Option η} {target' : Option θ} (h : (p.guarded g).states s t)
    (ht : Option.Rel ((p.guarded g).nodes s t) target target') :
    (p.guarded g).Alongside (p.guarded g).nodes (containerOf target) (containerOf target') s t := by
  cases ht with
  | some hn => exact .pure h hn
  | none =>
    obtain ⟨hlater, hn⟩ := p.createFragment h.1
    exact ⟨⟨⟨hlater.states, h.2⟩, hlater.nodes⟩, .ok hn⟩

/-- A fragment is built on both sides. -/
theorem serializeFragment (table : TemplateTable) (policy : MarkPolicy) {fragment : Fragment}
    (hm : ∀ node ∈ fragment, node.Maps g.maps) {target : Option η} {target' : Option θ}
    (h : (p.guarded g).states s t)
    (ht : Option.Rel ((p.guarded g).nodes s t) target target') :
    (p.guarded g).Alongside (p.guarded g).nodes (serializeFragment table policy fragment target)
      (serializeFragment table policy fragment target') s t := by
  rw [serializeFragment_eq, serializeFragment_eq]
  refine (p.containerOf h ht).bind fun root root' s₁ t₁ h₁ hr => ?_
  refine (p.serializeNodes table policy fragment hm h₁.states ⟨.nil, hr⟩).bind
    fun _ _ s₂ t₂ h₂ _ => ?_
  exact .pure h₂.states (h₂.nodes hr)

theorem wrapMarks (table : TemplateTable) {node : Node} (hn : g.maps node.attrs)
    {marks : List Mark} (hm : ∀ mark ∈ marks, g.maps mark.attrs) {inner : η} {inner' : θ}
    {s : Guarded σ} {t : Guarded τ} (h : (p.guarded g).states s t)
    (hi : (p.guarded g).nodes s t inner inner') :
    (p.guarded g).Alongside (p.guarded g).nodes (wrapMarks table node marks inner)
      (wrapMarks table node marks inner') s t := by
  induction marks with
  | nil => exact .pure h hi
  | cons mark rest ih =>
    obtain ⟨hmark, hrest⟩ := List.forall_mem_cons.mp hm
    rw [RichDoc.wrapMarks, RichDoc.wrapMarks]
    refine (ih hrest).bind fun wrapped wrapped' s₁ t₁ h₁ hw => ?_
    refine (p.renderMark h₁.states table hmark hn).bind fun first second s₂ t₂ h₂ hr => ?_
    cases hr with
    | none => exact .pure h₂.states (h₂.nodes hw)
    | some hr =>
      refine (p.appendTo h₂.states (p.place hr) (h₂.nodes hw)).bind fun _ _ s₃ t₃ h₃ _ => ?_
      exact .pure h₃.states (h₃.nodes hr.root)

/-- A node is built inside its wrappers on both sides. -/
theorem serializeNode (table : TemplateTable) (policy : MarkPolicy) {node : Node}
    (hm : node.Maps g.maps) (h : (p.guarded g).states s t) :
    (p.guarded g).Alongside (p.guarded g).nodes (serializeNode table policy node)
      (serializeNode table policy node) s t := by
  unfold RichDoc.serializeNode
  refine (p.renderNode table policy node hm h).bind fun inner inner' s₁ t₁ h₁ hi => ?_
  exact p.wrapMarks table hm.attrs (fun _ hmark => hm.marks hmark) h₁.states hi

end Pairing

/-! ### The guard stays right -/

section

variable {σ η α : Type}

/-- The guard keeps nothing wrong after some work if it kept nothing wrong before. -/
def Guarding.StaysFaithful (pool : Pool) (work : Guarding σ α) : Prop :=
  ∀ state, state.guard.Faithful pool → (work state).2.guard.Faithful pool

namespace Guarding.StaysFaithful

variable {pool : Pool} {work : Guarding σ α} {state after : Guarded σ} {result : Except Error α}

/-- A run of work that keeps a guard faithful keeps it so. -/
theorem of_run (hw : work.StaysFaithful pool) (hg : state.guard.Faithful pool)
    (h : work state = (result, after)) : after.guard.Faithful pool := by
  have hafter := hw state hg
  rwa [h] at hafter

variable [TreeBuilder σ η]

/-- Work that runs alongside itself, whatever was built, keeps the guard right. -/
theorem of_alongside {R : Guarded σ → Guarded σ → α → α → Prop}
    (hw : ∀ state,
      ((Pairing.anything (σ := σ) (τ := σ)).guarded (.faithful pool)).states state state →
      ((Pairing.anything (σ := σ) (τ := σ)).guarded (.faithful pool)).Alongside R work work state
        state) :
    work.StaysFaithful pool := fun state hg =>
  (hw state ⟨trivial, hg, hg⟩).1.states.2.1

theorem renderMark (table : TemplateTable) {mark : Mark} {node : Node}
    (hm : pool.has mark.attrs) (hn : pool.has node.attrs) :
    (renderMark table mark node : Guarding σ (Option (Rendered η))).StaysFaithful pool :=
  of_alongside fun _ hs => Pairing.anything.renderMark hs table hm hn

theorem openMarks (table : TemplateTable) (policy : MarkPolicy) {node : Node}
    (hn : pool.has node.attrs) {marks : List Mark} (hm : ∀ mark ∈ marks, pool.has mark.attrs)
    (opened : OpenMarks η) :
    (openMarks table policy node marks opened : Guarding σ (OpenMarks η)).StaysFaithful pool :=
  of_alongside fun _ hs => Pairing.anything.openMarks table policy hn hm hs
    ⟨List.forall₂_same.mpr fun _ _ => ⟨rfl, trivial⟩, trivial⟩

theorem renderNode (table : TemplateTable) (policy : MarkPolicy) {node : Node}
    (hm : node.Maps pool.has) :
    (renderNode table policy node : Guarding σ η).StaysFaithful pool :=
  of_alongside fun _ hs => Pairing.anything.renderNode table policy node hm hs

theorem reportNode (table : TemplateTable) (policy : MarkPolicy) {node : Node}
    (hm : node.Maps pool.has) :
    (reportNode table policy node : Guarding σ (η × List (Report σ η))).StaysFaithful pool := by
  intro state hg
  have hafter := renderNode (η := η) table policy hm state hg
  rwa [renderNode_eq_report, Building.map_apply] at hafter

end Guarding.StaysFaithful

end

/-! ### What serializing keeps -/

section

variable {σ η α β : Type} [TreeBuilder σ η] {R : σ → σ → Prop}

/-- The same is built on both sides, and a relation that building calls keep holds since a first
state. -/
def Pairing.keeping (h : Progress R) (start : σ) : Pairing σ σ where
  states s t := s = t ∧ R start s
  nodes _ _ x y := x = y
  createElement tag hs := by
    obtain ⟨rfl, hr⟩ := hs
    exact ⟨⟨⟨rfl, h.trans hr (h.createElement _ tag)⟩, id⟩, rfl⟩
  createText text hs := by
    obtain ⟨rfl, hr⟩ := hs
    exact ⟨⟨⟨rfl, h.trans hr (h.createText _ text)⟩, id⟩, rfl⟩
  createFragment hs := by
    obtain ⟨rfl, hr⟩ := hs
    exact ⟨⟨⟨rfl, h.trans hr (h.createFragment _)⟩, id⟩, rfl⟩
  setAttribute key value hs hn := by
    obtain ⟨rfl, hr⟩ := hs
    obtain rfl := hn
    exact ⟨⟨rfl, h.trans hr (h.setAttribute _ _ key value)⟩, id⟩
  appendChild hs hn hn' := by
    obtain ⟨rfl, hr⟩ := hs
    obtain rfl := hn
    obtain rfl := hn'
    exact ⟨⟨rfl, h.trans hr (h.appendChild _ _ _)⟩, id⟩

/-- A relation holds between what is built before some work and after it. -/
def Guarding.Keeps (R : σ → σ → Prop) (work : Guarding σ α) : Prop :=
  ∀ state, R state.tree (work state).2.tree

namespace Guarding.Keeps

/-- Work that runs alongside itself keeps what every building call keeps. -/
theorem of_alongside {h : Progress R} {S : Guarded σ → Guarded σ → Guarded σ → α → α → Prop}
    {work : Guarding σ α}
    (hw : ∀ state, ((Pairing.keeping h state.tree).guarded .same).states state state →
      ((Pairing.keeping h state.tree).guarded .same).Alongside (S state) work work state state) :
    work.Keeps R := fun state =>
  (hw state ⟨⟨rfl, h.refl _⟩, rfl⟩).1.states.1.2

/-- What work keeps holds between the start and the end of a run. -/
theorem of_run {work : Guarding σ α} (hw : work.Keeps R) {state after : Guarded σ}
    {result : Except Error α} (h : work state = (result, after)) : R state.tree after.tree := by
  have hafter := hw state
  rwa [h] at hafter

/-- Progress is made by two pieces of work if each makes it. -/
theorem bind (h : Progress R) {work : Guarding σ α} {next : α → Guarding σ β}
    (hw : work.Keeps R) (hn : ∀ a, (next a).Keeps R) : Keeps R (work >>= next) := by
  intro state
  have hfirst := hw state
  rcases hrun : work state with ⟨error | a, t⟩
  · rw [hrun] at hfirst
    rw [Building.bind_apply_error hrun]
    exact hfirst
  · rw [hrun] at hfirst
    rw [Building.bind_apply_ok hrun]
    exact h.trans hfirst (hn a t)

/-- The result of work is of no matter to what it keeps. -/
theorem map (f : α → β) {work : Guarding σ α} (hw : work.Keeps R) :
    Keeps R (f <$> work) := by
  intro state
  rw [Building.map_apply]
  exact hw state

/-- What work keeps can be seen from any of its results. -/
theorem of_map {f : α → β} {work : Guarding σ α} (hw : Keeps R (f <$> work)) :
    work.Keeps R := by
  intro state
  have h := hw state
  rwa [Building.map_apply] at h

/-- Progress is made by appending. -/
theorem appendTo (h : Progress R) (parent child : η) :
    (appendTo parent child : Guarding σ Unit).Keeps R := fun state =>
  h.appendChild state.tree parent child

/-- Progress is made by rendering a mark. -/
theorem renderMark (h : Progress R) (table : TemplateTable) (mark : Mark) (node : Node) :
    (renderMark table mark node : Guarding σ (Option (Rendered η))).Keeps R :=
  of_alongside fun state hs => (Pairing.keeping h state.tree).renderMark hs table trivial trivial

/-- Telling what became of marks keeps what opening their wrappers keeps. -/
theorem reportMarks (h : Progress R) (table : TemplateTable) (policy : MarkPolicy) (node : Node)
    (marks : List Mark) (top : η) :
    (reportMarks table policy node marks top : Guarding σ (List (Fate σ η))).Keeps R := by
  have hopen := openMarks_eq_report (σ := σ) table policy node marks top []
  refine of_map (f := fun fates => openedIn top ([] ++ wrappersOf fates)) ?_
  rw [placeIn] at hopen
  rw [← hopen]
  exact of_alongside fun state hs =>
    (Pairing.keeping h state.tree).openMarks table policy trivial (fun _ _ => trivial) hs
      ⟨.nil, rfl⟩

/-- Progress is made by a node and what is in it. -/
theorem reportNode (h : Progress R) (table : TemplateTable) (policy : MarkPolicy) (node : Node) :
    (reportNode table policy node : Guarding σ (η × List (Report σ η))).Keeps R := by
  refine of_map (f := Prod.fst) ?_
  rw [← renderNode_eq_report]
  exact of_alongside fun state hs =>
    (Pairing.keeping h state.tree).renderNode table policy node (GuardPairing.maps_same node) hs

/-- Progress is made by the nodes of a list. -/
theorem reportNodes (h : Progress R) (table : TemplateTable) (policy : MarkPolicy) (target : η)
    (chain : List (Wrapper σ η)) (nodes : List Node) :
    (reportNodes table policy target chain nodes : Guarding σ (List (Report σ η))).Keeps R := by
  refine of_map (f := fun _ => ()) ?_
  rw [← serializeNodes_eq_report]
  refine of_alongside fun state hs =>
    (Pairing.keeping h state.tree).serializeNodes table policy nodes
      (fun node _ => GuardPairing.maps_same node) hs ⟨?_, rfl⟩
  exact List.forall₂_same.mpr fun _ _ => ⟨rfl, rfl⟩

/-- Progress is made by wrapping a node in its marks. -/
theorem wrapMarks (h : Progress R) (table : TemplateTable) (node : Node) (marks : List Mark)
    (inner : η) : (wrapMarks table node marks inner : Guarding σ η).Keeps R :=
  of_alongside fun state hs =>
    (Pairing.keeping h state.tree).wrapMarks table trivial (fun _ _ => trivial) hs rfl

end Guarding.Keeps

end

end RichDoc
