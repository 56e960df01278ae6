import RichDoc.Proofs.Build.Rendering
import RichDoc.Proofs.Template.Recursion

/-!
# Lawful building

Anything that can be built relies on how it is called: nodes are used only after they have been
created, attributes are set on elements, and a node is appended at most once, to a node that is not
below it. Rendering keeps to these laws at every single call, also when it fails, and when it
succeeds all that it made hangs together below its root.
-/

namespace RichDoc.Script

/-- A node that can take children: one that has been created, or the number zero if that stands for
a node that was given. -/
def Place (given : Prop) (script : Script) (node : Nat) : Prop :=
  (node = 0 → given) ∧ node ≤ script.count

/-- One building call that keeps to the laws. -/
inductive Step (given : Prop) : Script → Script → Prop where
  | element (s : Script) (tag : String) : Step given s (TreeBuilder.createElement s tag).2
  | text (s : Script) (text : String) : Step given s (TreeBuilder.createText s text).2
  | fragment (s : Script) : Step given s (TreeBuilder.createFragment s).2
  | attr {s : Script} {id : Nat} {tag : String} (key value : String)
      (created : Call.element id tag ∈ s.calls.toList) :
      Step given s (TreeBuilder.setAttribute s id key value)
  | append {s : Script} {parent child : Nat} (place : s.Place given parent) (pos : 0 < child)
      (created : child ≤ s.count) (free : ∀ p, (p, child) ∉ s.edges)
      (apart : ¬Reaches s.edges child parent) :
      Step given s (TreeBuilder.appendChild s parent child)

/-- Building calls that all keep to the laws. -/
def Lawful (given : Prop) : Script → Script → Prop := Relation.ReflTransGen (Step given)

/-- All that was made hangs together at or below a node. -/
def Covers (before after : Script) (node : Nat) : Prop :=
  ∀ x, before.count < x → x ≤ after.count → Reaches after.edges node x

variable {given : Prop} {s t u : Script}

/-- The first of new nodes that are closed in themselves hangs on nothing. -/
theorem Grows.first_free (h : Grows (fun _ => False) s t) (hs : s.Closed) (p : Nat) :
    (p, s.count + 1) ∉ t.edges := by
  obtain ⟨-, added, he, -, hadd⟩ := h
  intro hmem
  rw [he] at hmem
  rcases List.mem_append.mp hmem with hmem | hmem
  · have hle := (hs _ hmem).2
    dsimp only at hle
    omega
  · obtain ⟨hnew, hlt, -⟩ := hadd _ hmem
    have hnew := hnew.resolve_right id
    dsimp only at hnew hlt
    omega

namespace Lawful

theorem refl (given : Prop) (s : Script) : Lawful given s s := Relation.ReflTransGen.refl

theorem trans (h : Lawful given s t) (h' : Lawful given t u) : Lawful given s u :=
  Relation.ReflTransGen.trans h h'

theorem step (h : Lawful given s t) (h' : Step given t u) : Lawful given s u :=
  Relation.ReflTransGen.tail h h'

theorem of_step (h : Step given s t) : Lawful given s t := (refl given s).step h

/-- New nodes that are closed in themselves are lawfully hung on an older one by their first. -/
theorem hang (h : Lawful given s t) (hg : Grows (fun _ => False) s t) (hr : s.count < t.count)
    (hs : s.Closed) {parent : Nat} (hp : s.Place given parent) :
    Lawful given s (TreeBuilder.appendChild t parent (s.count + 1)) := by
  refine h.step (.append ⟨hp.1, Nat.le_trans hp.2 hg.1⟩ (Nat.succ_pos _) hr (hg.first_free hs) ?_)
  intro hreach
  have hle := hs.le_of_reaches (hg.reaches_old hs hp.2 hreach) hp.2
  omega

end Lawful

namespace Covers

/-- What was made in two parts hangs together below one node. -/
theorem trans {outer : Nat → Prop} {node : Nat} (h : Covers s t node) (hg : Grows outer t u)
    (h' : Covers t u node) : Covers s u node := by
  intro x hx hle
  by_cases hold : x ≤ t.count
  · exact hg.reaches (h x hx hold)
  · exact h' x (Nat.lt_of_not_le hold) hle

theorem of_count_eq (node : Nat) (hc : t.count = s.count) : Covers s t node := by
  intro x hx hle
  omega

/-- A node that was created covers itself and what it covers. -/
theorem created (hc : t.count = s.count + 1) (h : Covers t u (s.count + 1)) :
    Covers s u (s.count + 1) := by
  intro x hx hle
  by_cases hself : x = s.count + 1
  · rw [hself]
    exact .refl _ _
  · exact h x (by omega) hle

/-- What was made is covered by a node that reaches its root. -/
theorem of_reaches {root node : Nat} (h : Covers s t root) (hr : Reaches t.edges node root) :
    Covers s t node := fun x hx hle => hr.trans (h x hx hle)

/-- What hangs together is covered by the node on which it is hung. -/
theorem hang {root : Nat} (h : Covers s t root) (parent : Nat) :
    Covers s (TreeBuilder.appendChild t parent root) parent := by
  intro x hx hle
  rw [edges_appendChild]
  have hedge : Reaches (t.edges ++ [(parent, root)]) parent root :=
    .edge (List.mem_append_right _ (List.mem_singleton.mpr rfl))
  exact hedge.trans ((h x hx hle).append _)

end Covers

/-! ### The parts of rendering -/

theorem mem_calls_record {script : Script} {call : Call} (h : call ∈ script.calls.toList)
    (other : Call) : call ∈ (script.record other).calls.toList := by
  rw [record, Array.toList_push]
  exact List.mem_append_left _ h

theorem mem_calls_createElement (s : Script) (tag : String) :
    Call.element (s.count + 1) tag ∈ (TreeBuilder.createElement s tag).2.calls.toList := by
  rw [show (TreeBuilder.createElement s tag).2.calls =
    s.calls.push (.element (s.count + 1) tag) from rfl, Array.toList_push]
  exact List.mem_append_right _ (List.mem_singleton.mpr rfl)

theorem setAttributes_lawful {id : Nat} {tag : String} (attrs : List (String × Json)) {s : Script}
    (h : Call.element id tag ∈ s.calls.toList) :
    Lawful given s ((setAttributes id attrs : Building Script Unit) s).2 := by
  induction attrs generalizing s with
  | nil => exact .refl _ s
  | cons attr rest ih =>
    obtain ⟨key, value⟩ := attr
    rw [setAttributes]
    split
    · exact ih h
    · split
      · rw [Building.bind_apply_ok (Building.modify_apply _ _)]
        exact (Lawful.of_step (.attr key _ h)).trans (ih (mem_calls_record h _))
      · exact .refl _ s

theorem buildAttributes_lawful {id : Nat} {tag : String} (attrs : List Attribute) {s : Script}
    (h : Call.element id tag ∈ s.calls.toList) :
    Lawful given s (buildAttributes s id attrs) := by
  unfold buildAttributes
  induction attrs generalizing s with
  | nil => exact .refl _ s
  | cons a rest ih =>
    exact (Lawful.of_step (.attr a.name.localName a.value h)).trans (ih (mem_calls_record h _))

theorem graftRoot_lawful (given : Prop) (data : Option NodeData) (s : Script) :
    Lawful given s (graftRoot s data).2 := by
  unfold graftRoot
  split
  · exact (Lawful.of_step (.element s _)).trans
      (buildAttributes_lawful _ (mem_calls_createElement s _))
  · exact .of_step (.text s _)
  · exact .of_step (.fragment s)
  · exact .of_step (.fragment s)
  · exact .of_step (.fragment s)

/-- A script whose edges were all there before. -/
theorem Closed.of_edges_eq (hs : s.Closed) (hc : s.count ≤ t.count) (he : t.edges = s.edges) :
    t.Closed := fun e hmem => by
  have hle := hs e (he ▸ hmem)
  exact ⟨Nat.le_trans hle.1 hc, Nat.le_trans hle.2 hc⟩

mutual

/-- A tree is copied lawfully, and the copy hangs together. -/
theorem graft_lawful {s : Script} (hs : s.Closed) (mark : Option Link) :
    (tree : Tree) → Lawful given s (graft s mark tree).2 ∧
      Covers s (graft s mark tree).2 (s.count + 1)
  | .node id data children => by
    rw [graft]
    obtain ⟨hcopy, hcount, hedges⟩ := graftRoot_state (some data) s
    have hroot := graftRoot_lawful given (some data) s
    generalize graftRoot s (some data) = made at hcopy hcount hedges hroot ⊢
    obtain ⟨copy, t⟩ := made
    dsimp only at hcopy hcount hedges hroot ⊢
    subst hcopy
    have hplace : t.Place given (s.count + 1) := ⟨nofun, Nat.le_of_eq hcount.symm⟩
    obtain ⟨hlawful, hcovers⟩ := graftChildren_lawful (hs.of_edges_eq (by omega) hedges) mark
      hplace children
    exact ⟨hroot.trans hlawful, hcovers.created hcount⟩
  | .absent link => by
    rw [graft]
    obtain ⟨-, hcount, -⟩ := graftRoot_state none s
    exact ⟨graftRoot_lawful given none s, .created hcount (.of_count_eq _ rfl)⟩

theorem graftChildren_lawful {s : Script} (hs : s.Closed) (mark : Option Link) {parent : Nat}
    (hp : s.Place given parent) : (trees : List Tree) →
    Lawful given s (graftChildren s mark parent trees).2 ∧
      Covers s (graftChildren s mark parent trees).2 parent
  | [] => ⟨.refl _ s, .of_count_eq _ rfl⟩
  | tree :: rest => by
    rw [graftChildren]
    split
    · exact graftChildren_lawful hs mark hp rest
    · obtain ⟨hmade, hok⟩ := graft_makes s mark tree
      obtain ⟨hlt, hroot, -⟩ := hok _ rfl
      obtain ⟨hlawful, hcovers⟩ := graft_lawful hs mark tree
      generalize graft s mark tree = made at hmade hlt hroot hlawful hcovers ⊢
      obtain ⟨⟨copy, here⟩, t⟩ := made
      dsimp only at hmade hlt hroot hlawful hcovers ⊢
      subst hroot
      have hang : Grows (fun x => x = parent) s
          (TreeBuilder.appendChild t parent (s.count + 1)) := hmade.hang hlt hp.2 rfl
      have hplace : (TreeBuilder.appendChild t parent (s.count + 1) : Script).Place given parent :=
        ⟨hp.1, Nat.le_trans hp.2 hang.1⟩
      obtain ⟨hlawful', hcovers'⟩ :=
        graftChildren_lawful (hang.closed hs) mark hplace rest
      have hg := (graftChildren_fills _ mark parent hplace.2 rest).1
      exact ⟨(hlawful.hang hmade hlt hs hp).trans hlawful', (hcovers.hang parent).trans hg hcovers'⟩

end

/-! ### Rendering -/

/-- A description is rendered lawfully into nodes that hang together below the root. -/
def Builds (given : Prop) (before : Script) (result : Except Error (Rendered Nat))
    (after : Script) : Prop :=
  Makes before result after ∧
    (before.Closed → Lawful given before after ∧
      ∀ rendered, result = .ok rendered → Covers before after rendered.root)

/-- A node is filled lawfully, and what fills it hangs together below it. -/
def FillsUp (given : Prop) (node : Nat) (before : Script)
    (result : Except Error (Rendered Nat)) (after : Script) : Prop :=
  Fills node before result after ∧
    (before.Closed → Lawful given before after ∧
      ∀ rendered, result = .ok rendered → Covers before after node)

/-- An element that was created and can be filled further. -/
def Ready (script : Script) (node : Nat) (hole : Option Nat) : Prop :=
  0 < node ∧ node ≤ script.count ∧ script.Below node hole

/-- Work that fails has made nothing that could be used. -/
theorem Builds.error (given : Prop) (s : Script) (error : Error) :
    Builds given s (.error error) s :=
  ⟨.error (.refl _ s) error, fun _ => ⟨.refl _ s, nofun⟩⟩

theorem FillsUp.error (given : Prop) (node : Nat) (s : Script) (error : Error) :
    FillsUp given node s (.error error) s :=
  ⟨.error (.refl _ s) error, fun _ => ⟨.refl _ s, nofun⟩⟩

/-- An element whose children are all in place. -/
theorem FillsUp.done {node : Nat} {hole : Option Nat} (h : s.Below node hole) :
    FillsUp given node s (.ok ⟨node, hole⟩) s :=
  ⟨.done h, fun _ => ⟨.refl _ s, fun _ _ => .of_count_eq _ rfl⟩⟩

/-- A node that is created and then filled is built. -/
theorem Builds.of_fillsUp {result : Except Error (Rendered Nat)} (hc : t.count = s.count + 1)
    (he : t.edges = s.edges) (hl : Lawful given s t) (h : FillsUp given (s.count + 1) t result u) :
    Builds given s result u := by
  refine ⟨.of_fills hc he h.1, fun hs => ?_⟩
  obtain ⟨hlawful, hcovers⟩ := h.2 (hs.of_edges_eq (by omega) he)
  refine ⟨hl.trans hlawful, fun rendered hr => ?_⟩
  rw [(h.1.2 rendered hr).1]
  exact (hcovers rendered hr).created hc

/-- Attributes are set on an element before it is filled. -/
theorem FillsUp.after_attributes {node : Nat} {tag : String} (attrs : List (String × Json))
    {next : Building Script (Rendered Nat)} (hm : Call.element node tag ∈ s.calls.toList)
    (hn : ∀ t : Script, t.count = s.count → FillsUp given node t (next t).1 (next t).2) :
    FillsUp given node s ((setAttributes node attrs >>= fun _ => next) s).1
      ((setAttributes node attrs >>= fun _ => next) s).2 := by
  obtain ⟨hc, he⟩ := setAttributes_state node attrs s
  have hlawful : Lawful given s _ := setAttributes_lawful attrs hm
  refine ⟨.bind (.of_edges_eq (Nat.le_of_eq hc.symm) he) fun _ _ => (hn _ hc).1, fun hs => ?_⟩
  rcases hrun : (setAttributes node attrs : Building Script Unit) s with ⟨error | _, t⟩
  · rw [hrun] at hlawful
    rw [Building.bind_apply_error hrun]
    exact ⟨hlawful, nofun⟩
  · rw [hrun] at hc he hlawful
    rw [Building.bind_apply_ok hrun]
    obtain ⟨hlawful', hcovers⟩ := (hn t hc).2 (hs.of_edges_eq (Nat.le_of_eq hc.symm) he)
    refine ⟨hlawful.trans hlawful', fun rendered hr x hx => hcovers rendered hr x ?_⟩
    rw [show t.count = s.count from hc]
    exact hx

/-- An element is built, whatever fills it. -/
theorem element_builds (tag : String) (refused : Bool) (attrs : List (String × Json))
    {fill : Nat → Building Script (Rendered Nat)} (s : Script)
    (hf : ∀ node t, Ready t node none →
      FillsUp given node t (fill node t).1 (fill node t).2) :
    Builds given s (buildElement tag refused attrs fill s).1
      (buildElement tag refused attrs fill s).2 := by
  unfold buildElement
  rw [Building.bind_apply, checkTag_apply]
  by_cases htag : Html.isTagName tag = true
  · rw [if_pos htag]
    dsimp only
    split
    · exact .error given s _
    · rw [Building.bind_apply_ok (Building.modifyGet_apply _ _)]
      refine .of_fillsUp (count_createElement s tag) (edges_createElement s tag)
        (.of_step (.element s tag)) ?_
      exact .after_attributes attrs (mem_calls_createElement s tag) fun t ht =>
        hf _ t ⟨Nat.succ_pos _, Nat.le_of_eq ht.symm, .none t _⟩
  · rw [if_neg htag]
    exact .error given s _

/-- A child that is rendered is hung on its parent, and what follows goes on from there. -/
theorem FillsUp.child {node : Nat} {hole : Option Nat} {s : Script}
    {work : Building Script (Rendered Nat)} {next : Option Nat → Building Script (Rendered Nat)}
    (hr : Ready s node hole) (hm : Builds given s (work s).1 (work s).2)
    (hn : ∀ taken t, Ready t node taken → FillsUp given node t (next taken t).1 (next taken t).2) :
    FillsUp given node s ((work >>= fun child => adopt node hole child >>= next) s).1
      ((work >>= fun child => adopt node hole child >>= next) s).2 := by
  obtain ⟨hpos, hle, hbelow⟩ := hr
  obtain ⟨hmakes, hm⟩ := hm
  refine ⟨.child hle hbelow hmakes fun taken t hc hb =>
    (hn taken t ⟨hpos, Nat.le_trans hle hc, hb⟩).1, fun hs => ?_⟩
  obtain ⟨hlawful, hcovers⟩ := hm hs
  rcases hw : work s with ⟨error | child, t⟩
  · rw [hw] at hlawful
    rw [Building.bind_apply_error hw]
    exact ⟨hlawful, nofun⟩
  · rw [hw] at hmakes hlawful hcovers
    rw [Building.bind_apply_ok hw]
    obtain ⟨hang, hb⟩ := adopt_fills hmakes hle hbelow
    obtain ⟨hlt, hroot, -⟩ := hmakes.2 child rfl
    rw [adopt_apply] at hang hb
    rw [Building.bind_apply, adopt_apply]
    by_cases hholes : child.hole.isSome ∧ hole.isSome
    · rw [if_pos hholes]
      exact ⟨hlawful, nofun⟩
    · rw [if_neg hholes] at hang hb ⊢
      dsimp only at hang hb ⊢
      have hplace : s.Place given node := ⟨fun h => absurd h (Nat.ne_of_gt hpos), hle⟩
      have hlawful' := hlawful.hang hmakes.1 hlt hs hplace
      rw [← hroot] at hlawful'
      obtain ⟨hfills, hnext⟩ := hn _ _ ⟨hpos, Nat.le_trans hle hang.1, hb _ rfl⟩
      obtain ⟨hlawful'', hcovers'⟩ := hnext (hang.closed hs)
      exact ⟨hlawful'.trans hlawful'', fun rendered hr =>
        ((hcovers child rfl).hang node).trans hfills.1 (hcovers' rendered hr)⟩

/-- Every rendering builds. -/
theorem renderRules_builds (given : Prop) :
    RenderRules (Builds given) Ready (FillsUp given) where
  text s text := ⟨renderText_makes text s, fun _ => ⟨.of_step (.text s text), fun rendered hr => by
    cases hr
    exact .created rfl (.of_count_eq _ rfl)⟩⟩
  tree s tree hole := ⟨renderTree_makes tree hole s, fun hs => by
    obtain ⟨hlawful, hcovers⟩ := graft_lawful hs hole tree.tree
    refine ⟨hlawful, fun rendered hr => ?_⟩
    rw [((renderTree_makes tree hole s).2 rendered hr).2.1]
    exact hcovers⟩
  refused s _ _ := .error given s _
  element s tag refused attrs _ hf := element_builds tag refused attrs s hf
  done hr := .done hr.2.2
  hole hr := .done (.self hr.2.1)
  stopped _ _ := .error given _ _ _
  child hr hm hn := .child hr hm hn

/-- Rendering under the guard builds in the tree. -/
theorem renderGuarded_builds (given : Prop) (spec : Spec) (sources : List Attrs)
    (state : Guarded Script) :
    Builds given state.tree
      ((spec.renderGuarded sources : Guarding Script (Rendered Nat)) state).1
      ((spec.renderGuarded sources : Guarding Script (Rendered Nat)) state).2.tree :=
  (renderRules_builds given).renderSpec (state.guard.collect sources).1 spec state.tree

end RichDoc.Script
