import RichDoc.Proofs.Build.Rendering
import RichDoc.Proofs.Serializer.Rules

/-!
# What failing templates leave behind

A template of a mark that fails may have built something before it failed. Nothing is ever appended
to an older node during that attempt, and nothing older is appended to what it built, so what it
built stays apart: no edge of the finished script leads into it. This holds at every depth, for the
marks of the siblings and for those of their content.
-/

namespace RichDoc

open Script

/-- A template of a mark failed between two states, on a node or somewhere in its content. -/
inductive Report.Lost {σ η : Type} : Report σ η → Guarded σ × Guarded σ → Prop where
  | own {report loss} : loss ∈ report.losses → Lost report loss
  | content {report inside loss} : inside ∈ report.content → Lost inside loss → Lost report loss

/-- What was built between two states stayed apart in a script that was built before and after. -/
structure Apart (before after : Script) (loss : Guarded Script × Guarded Script) : Prop where
  first : before.count ≤ loss.1.tree.count
  last : loss.2.tree.count ≤ after.count
  apart : Sealed after.edges loss.1.tree.count loss.2.tree.count

namespace Apart

variable {outer : Nat → Prop} {s t u : Script} {loss : Guarded Script × Guarded Script}

theorem grows (h : Apart s t loss) (hg : Grows outer t u) : Apart s u loss :=
  ⟨h.first, Nat.le_trans h.last hg.1, h.apart.grows hg h.last⟩

theorem of_later (h : Apart t u loss) (hc : s.count ≤ t.count) : Apart s u loss :=
  ⟨Nat.le_trans hc h.first, h.last, h.apart⟩

theorem append_edge (h : Apart s t loss) {child : Nat} (hc : child ≤ loss.1.tree.count)
    (parent : Nat) : Apart s (TreeBuilder.appendChild t parent child) loss :=
  ⟨h.first, h.last, by rw [edges_appendChild]; exact h.apart.append_edge hc parent⟩

/-- Nothing that was there before reaches what stayed apart. -/
theorem not_reaches (h : Apart s t loss) {a b : Nat} (ha : a ≤ s.count)
    (hb : loss.1.tree.count < b) (hl : b ≤ loss.2.tree.count) : ¬Reaches t.edges a b :=
  h.apart.not_reaches (Or.inl (Nat.le_trans ha h.first)) hb hl

end Apart

/-- The place of a wrapper that was made is a new node at or below its root. -/
theorem Script.Makes.place (mark : Mark) {rendered : Rendered Nat} {before after : Guarded Script}
    (h : Makes before.tree (.ok rendered) after.tree) :
    Reaches after.tree.edges rendered.root
        (Wrapper.place ⟨mark, rendered, before, after⟩) ∧
      before.tree.count < Wrapper.place ⟨mark, rendered, before, after⟩ ∧
      Wrapper.place ⟨mark, rendered, before, after⟩ ≤ after.tree.count := by
  obtain ⟨hlt, hroot, hhole⟩ := h.2 rendered rfl
  unfold Wrapper.place
  dsimp only
  cases hr : rendered.hole with
  | none =>
    rw [Option.getD_none]
    exact ⟨.refl _ _, by omega, by omega⟩
  | some hole =>
    rw [Option.getD_some]
    exact hhole hole hr

/-- Opening wrappers hangs nodes on the place where they are opened only. What was lost meanwhile
stays apart. -/
theorem MarksReported.grows {table : TemplateTable} {policy : MarkPolicy} {node : Node}
    {marks : List Mark} {top : Nat} {fates : List (Fate Script Nat)}
    {state after : Guarded Script}
    (h : MarksReported table policy node marks top state fates after) (hc : state.tree.Closed)
    (ht : top ≤ state.tree.count) :
    Grows (fun x => x = top) state.tree after.tree ∧
      (∀ loss ∈ fates.filterMap Fate.loss?, Apart state.tree after.tree loss) ∧
      ∀ w ∈ wrappersOf fates, state.tree.count < w.place ∧ w.place ≤ after.tree.count := by
  induction h with
  | nil => exact ⟨.refl _ _, List.forall_mem_nil _, List.forall_mem_nil _⟩
  | passed _ _ ih => exact ih hc ht
  | @opened mark rest top state rendered built fates after known built_eq next ih =>
    have hm := makes_of_renderMark built_eq
    obtain ⟨hang, -⟩ := hm.hang ht
    obtain ⟨-, hlt, hle⟩ := hm.place mark
    obtain ⟨hg, hl, hw⟩ := ih (hang.closed hc) hle
    have hcount := hang.1
    refine ⟨hang.trans hg fun x hx => Or.inr (hx ▸ hlt), fun loss h => (hl loss h).of_later hcount,
      ?_⟩
    intro w hmem
    rw [wrappersOf_opened] at hmem
    rcases List.mem_cons.mp hmem with rfl | hmem
    · exact ⟨hlt, Nat.le_trans hle hg.1⟩
    · obtain ⟨h1, h2⟩ := hw w hmem
      exact ⟨Nat.lt_of_le_of_lt hcount h1, h2⟩
  | @dropped mark rest top state error failed fates after known failed_eq goesOn next ih =>
    have hf := grows_of_renderMark failed_eq
    obtain ⟨hg, hl, hw⟩ := ih (hf.closed hc) (Nat.le_trans ht hf.1)
    refine ⟨(hf.mono fun _ h => h.elim).trans hg fun x hx => Or.inl hx, ?_, ?_⟩
    · intro loss hmem
      rcases List.mem_cons.mp hmem with rfl | hmem
      · exact ⟨Nat.le_refl _, hg.1, (hf.sealed hc).grows hg (Nat.le_refl _)⟩
      · exact (hl loss hmem).of_later hf.1
    · intro w hmem
      obtain ⟨h1, h2⟩ := hw w hmem
      exact ⟨Nat.lt_of_le_of_lt hf.1 h1, h2⟩

/-- The inner rendering of a node is made of new nodes, the first of which is its root, and what is
lost in its content stays apart. -/
def InnerMade (table : TemplateTable) (policy : MarkPolicy) (node : Node) : Prop :=
  ∀ ⦃state after : Guarded Script⦄ ⦃inner : Nat⦄ ⦃content : List (Report Script Nat)⦄,
    reportNode table policy node state = (.ok (inner, content), after) → state.tree.Closed →
    Grows (fun _ => False) state.tree after.tree ∧ state.tree.count < after.tree.count ∧
      inner = state.tree.count + 1 ∧
      ∀ report ∈ content, ∀ loss, report.Lost loss →
        Apart state.tree after.tree loss ∧ inner ≤ loss.1.tree.count

/-- The nodes that siblings inside a chain of wrappers can be appended to. -/
def OnChain (target : Nat) (chain : List (Wrapper Script Nat)) (node : Nat) : Prop :=
  node = target ∨ ∃ w ∈ chain, node = w.place

/-- Without wrappers, siblings are appended to the target. -/
theorem OnChain.eq_target {target x : Nat} (h : OnChain target [] x) : x = target := by
  rcases h with h | ⟨w, hw, -⟩
  · exact h
  · cases hw

theorem onChain_placeIn (target : Nat) (chain : List (Wrapper Script Nat)) :
    OnChain target chain (placeIn target chain) := by
  cases chain with
  | nil => exact Or.inl rfl
  | cons w ws => exact Or.inr (placeIn_cons target w ws)

theorem sharing_wrappers {σ η : Type} (table : TemplateTable) (chain : List (Wrapper σ η))
    (marks : List Mark) : wrappersOf (sharing table chain marks).1 <+: chain := by
  induction marks generalizing chain with
  | nil =>
    rw [sharing]
    exact List.nil_prefix
  | cons mark marks ih =>
    cases chain with
    | nil => exact List.nil_prefix
    | cons w ws =>
      rw [sharing]
      split
      · split
        · rw [wrappersOf_shared]
          exact List.prefix_cons_inj w |>.mpr (ih ws)
        · exact List.nil_prefix
      · rw [wrappersOf_passed]
        exact ih (w :: ws)

/-- Siblings are appended to the target and to the wrappers around them only. -/
theorem NodesReported.grows {table : TemplateTable} {policy : MarkPolicy} {target : Nat}
    {chain : List (Wrapper Script Nat)} {nodes : List Node} {state after : Guarded Script}
    {reports : List (Report Script Nat)}
    (h : NodesReported table policy target chain nodes state reports after)
    (hn : ∀ node ∈ nodes, InnerMade table policy node) (hc : state.tree.Closed)
    (ht : ∀ x, OnChain target chain x → x ≤ state.tree.count) :
    Grows (OnChain target chain) state.tree after.tree ∧
      ∀ report ∈ reports, ∀ loss, report.Lost loss → Apart state.tree after.tree loss := by
  induction h with
  | nil => exact ⟨.refl _ _, List.forall_mem_nil _⟩
  | @cons chain node rest state shared left opened inside inner content built reports after
      agree marks built_eq next ih =>
    have hpre : wrappersOf shared <+: chain := by
      have h := sharing_wrappers table chain node.marks
      rwa [agree] at h
    have hkept : ∀ x, OnChain target (wrappersOf shared) x → OnChain target chain x :=
      fun x hx => hx.imp_right fun ⟨w, hw, he⟩ => ⟨w, hpre.subset hw, he⟩
    have htop := onChain_placeIn target (wrappersOf shared)
    obtain ⟨hg₁, hl₁, hw₁⟩ := marks.grows hc (ht _ (hkept _ htop))
    have hc₁ := hg₁.closed hc
    obtain ⟨hg₂, hlt, hinner, hl₂⟩ := hn node (List.mem_cons_self ..) built_eq hc₁
    have hplaces : ∀ x, OnChain target (wrappersOf (shared ++ opened)) x →
        (OnChain target chain x ∨ state.tree.count < x) ∧ x ≤ inside.tree.count := by
      intro x hx
      rw [wrappersOf_append] at hx
      have hcase : OnChain target (wrappersOf shared) x ∨ ∃ w ∈ wrappersOf opened, x = w.place := by
        rcases hx with hx | ⟨w, hw, hx⟩
        · exact Or.inl (Or.inl hx)
        · rcases List.mem_append.mp hw with hw | hw
          · exact Or.inl (Or.inr ⟨w, hw, hx⟩)
          · exact Or.inr ⟨w, hw, hx⟩
      rcases hcase with hx | ⟨w, hw, rfl⟩
      · exact ⟨Or.inl (hkept x hx), Nat.le_trans (ht x (hkept x hx)) hg₁.1⟩
      · exact ⟨Or.inr (hw₁ w hw).1, (hw₁ w hw).2⟩
    have hlast := onChain_placeIn target (wrappersOf (shared ++ opened))
    have hang := hg₂.hang hlt (hplaces _ hlast).2 hlast
    rw [← hinner] at hang
    have hg₃ := (hg₁.mono fun x hx => by rw [hx]; exact hkept _ htop).trans hang fun x hx =>
      (hplaces x hx).1
    obtain ⟨hg₄, hl₄⟩ := ih (fun node hmem => hn node (List.mem_cons_of_mem _ hmem))
      (hang.closed hc₁) fun x hx => Nat.le_trans (hplaces x hx).2 hang.1
    refine ⟨hg₃.trans hg₄ fun x hx => (hplaces x hx).1, ?_⟩
    intro report hmem loss hlost
    rcases List.mem_cons.mp hmem with rfl | hmem
    · cases hlost with
      | own hown =>
        have hs : shared.filterMap Fate.loss? = [] := by
          have h := sharing_losses table chain node.marks
          rwa [agree] at h
        rw [Report.losses, List.filterMap_append, hs, List.nil_append] at hown
        exact ((hl₁ loss hown).grows hang).grows hg₄
      | content hin hlost =>
        obtain ⟨hapart, hle⟩ := hl₂ _ hin loss hlost
        exact ((hapart.of_later hg₁.1).append_edge hle _).grows hg₄
    · exact (hl₄ report hmem loss hlost).of_later hg₃.1

/-- Every node has an inner rendering of its own. -/
theorem innerMade (table : TemplateTable) (policy : MarkPolicy) (node : Node) :
    InnerMade table policy node := by
  induction node using Node.induction_content with
  | step node ih =>
    intro state after inner reports h hc
    obtain ⟨template, rendered, made, hr, rfl, hends⟩ := reportNode_ok h
    have hm := renderGuarded_makes (template node) [node.attrs] state
    rw [hr] at hm
    obtain ⟨hg, hok⟩ := hm
    obtain ⟨hlt, hroot, hhole⟩ := hok rendered rfl
    rcases hends with ⟨rfl, rfl⟩ | ⟨hole, hh, hn⟩
    · exact ⟨hg, hlt, hroot, List.forall_mem_nil _⟩
    · obtain ⟨-, hnew, hle⟩ := hhole hole hh
      obtain ⟨hg', hl⟩ := hn.grows ih (hg.closed hc) fun x hx => hx.eq_target ▸ hle
      refine ⟨hg.trans hg' fun x hx => Or.inr (hx.eq_target ▸ hnew), Nat.lt_of_lt_of_le hlt hg'.1,
        hroot, ?_⟩
      intro report hmem loss hlost
      have hapart := hl report hmem loss hlost
      exact ⟨hapart.of_later hg.1, Nat.le_trans (hroot ▸ hlt) hapart.first⟩

end RichDoc
