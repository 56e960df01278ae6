import RichDoc.Proofs.Build.Growth
import RichDoc.Proofs.Template.Recursion

/-!
# Rendering into a script

A description is rendered into nodes of its own: the first of them is the root, whatever else is
made hangs below new nodes, and the hole is the root or below it. This also holds of what a
rendering that fails leaves behind. Content that is filled into a node hangs on that node only.
-/

namespace RichDoc.Script

/-- Work made new nodes that hang on no older one. If it succeeded, the first of them is the root
of what was rendered, and the hole is at or below the root. -/
def Makes (before : Script) (result : Except Error (Rendered Nat)) (after : Script) : Prop :=
  Grows (fun _ => False) before after ∧
    ∀ rendered, result = .ok rendered → before.count < after.count ∧
      rendered.root = before.count + 1 ∧
      ∀ hole ∈ rendered.hole, Reaches after.edges rendered.root hole ∧ before.count < hole ∧
        hole ≤ after.count

/-- A node that marks the place of content: at or below a node, and not older than it. -/
def Below (script : Script) (node : Nat) (hole : Option Nat) : Prop :=
  ∀ h ∈ hole, Reaches script.edges node h ∧ node ≤ h ∧ h ≤ script.count

/-- Work filled a node with new nodes, and its hole is at or below that node. -/
def Fills (node : Nat) (before : Script) (result : Except Error (Rendered Nat))
    (after : Script) : Prop :=
  Grows (fun x => x = node) before after ∧
    ∀ rendered, result = .ok rendered → rendered.root = node ∧ after.Below node rendered.hole

theorem Below.none (script : Script) (node : Nat) : script.Below node none := by
  intro h hh
  cases hh

theorem Below.self {script : Script} {node : Nat} (h : node ≤ script.count) :
    script.Below node (some node) := by
  intro x hx
  cases hx
  exact ⟨.refl _ node, Nat.le_refl _, h⟩

theorem Below.later {script : Script} {node : Nat} {first second : Option Nat}
    (h : script.Below node first) (h' : script.Below node second) :
    script.Below node (laterMark first second) := by
  cases second with
  | none => exact h
  | some _ => exact h'

theorem Below.grows {outer : Nat → Prop} {s t : Script} {node : Nat} {hole : Option Nat}
    (h : s.Below node hole) (hg : Grows outer s t) : t.Below node hole := fun x hx =>
  ⟨hg.reaches (h x hx).1, (h x hx).2.1, Nat.le_trans (h x hx).2.2 hg.1⟩

/-- Work that fails has made nothing that could be used. -/
theorem Makes.error {s t : Script} (h : Grows (fun _ => False) s t) (error : Error) :
    Makes s (.error error) t :=
  ⟨h, fun _ he => by cases he⟩

theorem Fills.error {node : Nat} {s t : Script} (h : Grows (fun x => x = node) s t)
    (error : Error) : Fills node s (.error error) t :=
  ⟨h, fun _ he => by cases he⟩

/-- An element that is created and then filled is made. -/
theorem Makes.of_fills {s t u : Script} {result : Except Error (Rendered Nat)}
    (hc : t.count = s.count + 1) (he : t.edges = s.edges)
    (h : Fills (s.count + 1) t result u) : Makes s result u := by
  have hst : Grows (fun _ => False) s t := .of_edges_eq (by omega) he
  refine ⟨hst.trans h.1 fun x hx => Or.inr (by omega), ?_⟩
  intro rendered hr
  obtain ⟨hroot, hb⟩ := h.2 rendered hr
  have hcount := h.1.1
  refine ⟨by omega, hroot, ?_⟩
  intro hole hh
  obtain ⟨hreach, h1, h2⟩ := hb hole hh
  exact ⟨hroot ▸ hreach, by omega, h2⟩

/-! ### Parts of a rendering -/

theorem checkTag_state (tag : String) (s : Script) :
    ((checkTag tag : Building Script Unit) s).2 = s := by
  unfold checkTag
  split <;> rfl

/-- Attributes make neither nodes nor edges. -/
theorem setAttributes_state (node : Nat) (attrs : List (String × Json)) (s : Script) :
    ((setAttributes node attrs : Building Script Unit) s).2.count = s.count ∧
      ((setAttributes node attrs : Building Script Unit) s).2.edges = s.edges := by
  induction attrs generalizing s with
  | nil => exact ⟨rfl, rfl⟩
  | cons attr rest ih =>
    obtain ⟨key, value⟩ := attr
    rw [setAttributes]
    split
    · exact ih s
    · split
      · rw [Building.bind_apply_ok (Building.modify_apply _ _)]
        obtain ⟨hc, he⟩ := ih (TreeBuilder.setAttribute s node key (attributeText value))
        exact ⟨hc.trans (count_setAttribute ..), he.trans (edges_setAttribute ..)⟩
      · exact ⟨rfl, rfl⟩

theorem renderText_makes (text : String) (s : Script) :
    Makes s ((renderText text : Building Script (Rendered Nat)) s).1
      ((renderText text : Building Script (Rendered Nat)) s).2 := by
  refine ⟨.of_edges_eq (Nat.le_succ _) (edges_createText s text), ?_⟩
  intro rendered hr
  cases hr
  exact ⟨Nat.lt_succ_self _, rfl, fun _ hh => by cases hh⟩

/-- What was made is hung on an older node, and its hole is below that node. -/
theorem Makes.hang {s t : Script} {parent : Nat} {child : Rendered Nat}
    (hm : Makes s (.ok child) t) (hp : parent ≤ s.count) :
    Grows (fun x => x = parent) s (TreeBuilder.appendChild t parent child.root) ∧
      (TreeBuilder.appendChild t parent child.root).Below parent child.hole := by
  obtain ⟨hg, hok⟩ := hm
  obtain ⟨hlt, hroot, hhole⟩ := hok child rfl
  rw [hroot]
  refine ⟨hg.hang hlt hp rfl, ?_⟩
  intro h hh
  obtain ⟨hreach, h1, h2⟩ := hhole h hh
  rw [hroot] at hreach
  rw [edges_appendChild, count_appendChild]
  refine ⟨?_, by omega, h2⟩
  have hedge : Reaches (t.edges ++ [(parent, s.count + 1)]) parent (s.count + 1) :=
    .edge (List.mem_append_right _ (List.mem_singleton.mpr rfl))
  exact hedge.trans (hreach.append _)

/-- A child that was made is hung on its parent, and its hole is taken over. -/
theorem adopt_fills {s t : Script} {parent : Nat} {hole : Option Nat} {child : Rendered Nat}
    (hm : Makes s (.ok child) t) (hp : parent ≤ s.count) (hh : s.Below parent hole) :
    Grows (fun x => x = parent) s ((adopt parent hole child : Building Script (Option Nat)) t).2 ∧
      ∀ taken, ((adopt parent hole child : Building Script (Option Nat)) t).1 = .ok taken →
        ((adopt parent hole child : Building Script (Option Nat)) t).2.Below parent taken := by
  obtain ⟨hang, hbelow⟩ := hm.hang hp
  rw [adopt_apply]
  split
  · refine ⟨hm.1.mono fun _ h => h.elim, fun _ he => ?_⟩
    cases he
  · refine ⟨hang, fun taken he => ?_⟩
    cases he
    exact .later (hh.grows hang) hbelow

/-! ### Grafting -/

/-- The attributes of a copy make neither nodes nor edges. -/
theorem buildAttributes_state (node : Nat) (attrs : List Attribute) (s : Script) :
    (buildAttributes s node attrs).count = s.count ∧
      (buildAttributes s node attrs).edges = s.edges := by
  unfold buildAttributes
  induction attrs generalizing s with
  | nil => exact ⟨rfl, rfl⟩
  | cons a rest ih =>
    obtain ⟨hc, he⟩ := ih (TreeBuilder.setAttribute s node a.name.localName a.value)
    exact ⟨hc, he.trans (edges_setAttribute ..)⟩

theorem graftRoot_state (data : Option NodeData) (s : Script) :
    (graftRoot s data).1 = s.count + 1 ∧ (graftRoot s data).2.count = s.count + 1 ∧
      (graftRoot s data).2.edges = s.edges := by
  unfold graftRoot
  split
  · obtain ⟨hc, he⟩ := buildAttributes_state (s.count + 1) ‹_›
      (TreeBuilder.createElement s (QualName.localName ‹_›)).2
    exact ⟨rfl, hc, he.trans (edges_createElement ..)⟩
  · exact ⟨rfl, rfl, edges_createText ..⟩
  · exact ⟨rfl, rfl, edges_createFragment ..⟩
  · exact ⟨rfl, rfl, edges_createFragment ..⟩
  · exact ⟨rfl, rfl, edges_createFragment ..⟩

mutual

/-- A copy is made. -/
theorem graft_makes (s : Script) (mark : Option Link) : (tree : Tree) →
    Makes s (.ok ⟨(graft s mark tree).1.1, (graft s mark tree).1.2⟩) (graft s mark tree).2
  | .node id data children => by
    rw [graft]
    obtain ⟨hcopy, hcount, hedges⟩ := graftRoot_state (some data) s
    generalize graftRoot s (some data) = made at hcopy hcount hedges ⊢
    obtain ⟨copy, t⟩ := made
    dsimp only at hcopy hcount hedges ⊢
    subst hcopy
    obtain ⟨hg, hb⟩ := graftChildren_fills t mark (s.count + 1) (by omega) children
    refine .of_fills hcount hedges ⟨hg, fun rendered hr => ?_⟩
    cases hr
    refine ⟨rfl, .later ?_ hb⟩
    split
    · exact .self (by have := hg.1; omega)
    · exact .none _ _
  | .absent link => by
    rw [graft]
    obtain ⟨hcopy, hcount, hedges⟩ := graftRoot_state none s
    generalize graftRoot s none = made at hcopy hcount hedges ⊢
    obtain ⟨copy, t⟩ := made
    dsimp only at hcopy hcount hedges ⊢
    subst hcopy
    refine .of_fills hcount hedges ⟨.refl _ t, fun rendered hr => ?_⟩
    cases hr
    refine ⟨rfl, ?_⟩
    dsimp only
    split
    · exact .self (by omega)
    · exact .none _ _

/-- The copies of children fill their parent. -/
theorem graftChildren_fills (s : Script) (mark : Option Link) (parent : Nat)
    (hp : parent ≤ s.count) : (trees : List Tree) →
    Grows (fun x => x = parent) s (graftChildren s mark parent trees).2 ∧
      (graftChildren s mark parent trees).2.Below parent (graftChildren s mark parent trees).1
  | [] => ⟨.refl _ s, .none s parent⟩
  | tree :: rest => by
    rw [graftChildren]
    split
    · exact graftChildren_fills s mark parent hp rest
    · have hm := graft_makes s mark tree
      obtain ⟨hang, hbelow⟩ := hm.hang hp
      generalize graft s mark tree = made at hang hbelow ⊢
      obtain ⟨⟨copy, here⟩, t⟩ := made
      dsimp only at hang hbelow ⊢
      have hcount := hang.1
      obtain ⟨hg, hb⟩ :=
        graftChildren_fills (TreeBuilder.appendChild t parent copy) mark parent (by omega) rest
      exact ⟨hang.trans hg fun x hx => Or.inl hx, .later (hbelow.grows hg) hb⟩

end

/-! ### Rendering -/

/-- Work whose first part does not build anything makes what its second part makes. -/
theorem Makes.after {s : Script} {check : Building Script Unit} (hc : (check s).2 = s)
    {work : Building Script (Rendered Nat)} (h : Makes s (work s).1 (work s).2) :
    Makes s ((check >>= fun _ => work) s).1 ((check >>= fun _ => work) s).2 := by
  rcases hcheck : check s with ⟨error | u, t⟩
  · rw [hcheck] at hc
    subst hc
    rw [Building.bind_apply_error hcheck]
    exact .error (.refl _ t) error
  · rw [hcheck] at hc
    subst hc
    rw [Building.bind_apply_ok hcheck]
    exact h

/-- Work in two parts fills a node if the first part hangs new nodes on that node only and the
second fills it. -/
theorem Fills.bind {α : Type} {node : Nat} {s : Script} {work : Building Script α}
    {next : α → Building Script (Rendered Nat)}
    (h : Grows (fun x => x = node) s (work s).2)
    (hn : ∀ a, (work s).1 = .ok a → Fills node (work s).2 (next a (work s).2).1
      (next a (work s).2).2) :
    Fills node s ((work >>= next) s).1 ((work >>= next) s).2 := by
  rcases hw : work s with ⟨error | a, t⟩
  · rw [hw] at h
    rw [Building.bind_apply_error hw]
    exact .error h error
  · rw [hw] at h hn
    obtain ⟨hg, hok⟩ := hn a rfl
    rw [Building.bind_apply_ok hw]
    exact ⟨h.trans hg fun x hx => Or.inl hx, hok⟩

/-- An element with attributes is made, whatever fills it. -/
theorem element_makes (tag : String) (refused : Bool) (attrs : List (String × Json))
    {fill : Nat → Building Script (Rendered Nat)} (s : Script)
    (hf : ∀ t : Script, t.count = s.count + 1 →
      Fills (s.count + 1) t (fill (s.count + 1) t).1 (fill (s.count + 1) t).2) :
    Makes s (buildElement tag refused attrs fill s).1
      (buildElement tag refused attrs fill s).2 := by
  unfold buildElement
  refine .after (checkTag_state tag s) ?_
  split
  · exact .error (.refl _ s) _
  · rw [Building.bind_apply_ok (Building.modifyGet_apply _ _)]
    refine .of_fills (count_createElement s tag) (edges_createElement s tag) ?_
    obtain ⟨hc, he⟩ :=
      setAttributes_state (s.count + 1) attrs (TreeBuilder.createElement s tag).2
    exact .bind (.of_edges_eq (Nat.le_of_eq hc.symm) he) fun _ _ => hf _ hc

/-- A child that is rendered hangs on its parent, and what follows goes on from there. -/
theorem Fills.child {node : Nat} {hole : Option Nat} {s : Script}
    {work : Building Script (Rendered Nat)} {next : Option Nat → Building Script (Rendered Nat)}
    (hp : node ≤ s.count) (hh : s.Below node hole) (hm : Makes s (work s).1 (work s).2)
    (hn : ∀ (taken : Option Nat) (t : Script), s.count ≤ t.count → t.Below node taken →
      Fills node t (next taken t).1 (next taken t).2) :
    Fills node s ((work >>= fun child => adopt node hole child >>= next) s).1
      ((work >>= fun child => adopt node hole child >>= next) s).2 := by
  rcases hw : work s with ⟨error | child, t⟩
  · rw [Building.bind_apply_error hw]
    rw [hw] at hm
    exact .error (hm.1.mono fun _ h => h.elim) error
  · rw [Building.bind_apply_ok hw]
    rw [hw] at hm
    obtain ⟨hg, hb⟩ := adopt_fills hm hp hh
    rcases ha : adopt node hole child t with ⟨error | taken, u⟩
    · rw [ha] at hg
      rw [Building.bind_apply_error ha]
      exact .error hg error
    · rw [ha] at hg hb
      rw [Building.bind_apply_ok ha]
      obtain ⟨hg', hok⟩ := hn taken u hg.1 (hb taken rfl)
      exact ⟨hg.trans hg' fun x hx => Or.inl hx, hok⟩

/-- An element whose children are all in place. -/
theorem Fills.done {node : Nat} {hole : Option Nat} {s : Script} (hh : s.Below node hole) :
    Fills node s (.ok ⟨node, hole⟩) s := by
  refine ⟨.refl _ s, fun rendered hr => ?_⟩
  cases hr
  exact ⟨rfl, hh⟩

theorem renderTree_makes (tree : Subtree) (hole : Option Link) (s : Script) :
    Makes s ((renderTree tree hole : Building Script (Rendered Nat)) s).1
      ((renderTree tree hole : Building Script (Rendered Nat)) s).2 :=
  graft_makes s hole tree.tree

/-- Every rendering makes its nodes. -/
theorem renderRules_makes :
    RenderRules Makes (fun s node hole => node ≤ s.count ∧ s.Below node hole) Fills where
  text s text := renderText_makes text s
  tree s tree hole := renderTree_makes tree hole s
  refused s error _ := .error (.refl _ s) error
  element s tag refused attrs _ hf := element_makes tag refused attrs s fun t ht =>
    hf _ t ⟨Nat.le_of_eq ht.symm, .none t _⟩
  done hr := .done hr.2
  hole hr := .done (.self hr.1)
  stopped _ _ := .error (.refl _ _) _
  child hr hm hn := .child hr.1 hr.2 hm fun taken t hc hb =>
    hn taken t ⟨Nat.le_trans hr.1 hc, hb⟩

/-- Rendering a description makes its nodes. -/
theorem renderSpec_makes (blocked : List Suspicious) (spec : Spec) (s : Script) :
    Makes s ((renderSpec blocked spec : Building Script (Rendered Nat)) s).1
      ((renderSpec blocked spec : Building Script (Rendered Nat)) s).2 :=
  renderRules_makes.renderSpec blocked spec s

/-- Rendering under the guard makes nodes in the tree. -/
theorem renderGuarded_makes (spec : Spec) (sources : List Attrs) (state : Guarded Script) :
    Makes state.tree ((spec.renderGuarded sources : Guarding Script (Rendered Nat)) state).1
      ((spec.renderGuarded sources : Guarding Script (Rendered Nat)) state).2.tree :=
  renderSpec_makes (state.guard.collect sources).1 spec state.tree

/-- An attempt to build a wrapper makes nodes of its own, whether it succeeds or not. -/
theorem renderMark_makes (table : TemplateTable) (mark : Mark) (node : Node)
    (state : Guarded Script) :
    Grows (fun _ => False) state.tree
        ((renderMark table mark node : Guarding Script (Option (Rendered Nat))) state).2.tree ∧
      ∀ rendered,
        ((renderMark table mark node : Guarding Script (Option (Rendered Nat))) state).1 =
          .ok (some rendered) →
        Makes state.tree (.ok rendered)
        ((renderMark table mark node : Guarding Script (Option (Rendered Nat))) state).2.tree := by
  unfold renderMark
  cases table.mark? mark.typeName with
  | none => exact ⟨.refl _ _, fun _ h => by cases h⟩
  | some template =>
    have hm := renderGuarded_makes (template mark node.isInline) [mark.attrs, node.attrs] state
    dsimp only
    rcases hr : ((template mark node.isInline).renderGuarded [mark.attrs, node.attrs] :
      Guarding Script (Rendered Nat)) state with ⟨error | rendered, after⟩
    · rw [hr] at hm
      rw [Building.bind_apply_error hr]
      exact ⟨hm.1, fun _ h => by cases h⟩
    · rw [hr] at hm
      rw [Building.bind_apply_ok hr]
      exact ⟨hm.1, fun _ h => by cases h; exact hm⟩

/-- A wrapper that was built is made of new nodes, the first of which is its root. -/
theorem makes_of_renderMark {table : TemplateTable} {mark : Mark} {node : Node}
    {state after : Guarded Script} {rendered : Rendered Nat}
    (h : renderMark table mark node state = (.ok (some rendered), after)) :
    Makes state.tree (.ok rendered) after.tree := by
  have hm := (renderMark_makes table mark node state).2 rendered
  rw [h] at hm
  exact hm rfl

/-- A failing template makes nodes on their own. -/
theorem grows_of_renderMark {table : TemplateTable} {mark : Mark} {node : Node}
    {state after : Guarded Script} {result : Except Error (Option (Rendered Nat))}
    (h : renderMark table mark node state = (result, after)) :
    Grows (fun _ => False) state.tree after.tree := by
  have hm := (renderMark_makes table mark node state).1
  rw [h] at hm
  exact hm

end RichDoc.Script
