import RichDoc.Proofs.Build.Rendering
import RichDoc.Proofs.Serializer.Rules

/-!
# When wrappers are built

Nodes are numbered as they are created, so the wrappers of a run take up separate ranges of
numbers, one after another, and the inner rendering of a node is in none of them.
-/

namespace RichDoc

open Script

/-- The wrapper that was opened for a mark. -/
def Fate.opened? {σ η : Type} : Fate σ η → Option (Wrapper σ η)
  | .opened wrapper => some wrapper
  | _ => none

mutual

/-- The wrappers that were opened for a node and in its content, in order. -/
def Report.wrappers {σ η : Type} : Report σ η → List (Wrapper σ η)
  | ⟨fates, _, content⟩ => fates.filterMap Fate.opened? ++ wrappersIn content

/-- The wrappers that were opened for nodes and in their content, in order. -/
def wrappersIn {σ η : Type} : List (Report σ η) → List (Wrapper σ η)
  | [] => []
  | report :: rest => report.wrappers ++ wrappersIn rest

end

theorem mem_wrappersIn {σ η : Type} {reports : List (Report σ η)} {report : Report σ η}
    (hr : report ∈ reports) {w : Wrapper σ η} (hw : .opened w ∈ report.fates) :
    w ∈ wrappersIn reports := by
  induction reports with
  | nil => cases hr
  | cons head rest ih =>
    rw [wrappersIn]
    rcases List.mem_cons.mp hr with rfl | hr
    · obtain ⟨fates, inner, content⟩ := report
      rw [Report.wrappers]
      have hmem : w ∈ fates.filterMap Fate.opened? := List.mem_filterMap.mpr ⟨_, hw, rfl⟩
      exact List.mem_append_left _ (List.mem_append_left _ hmem)
    · exact List.mem_append_right _ (ih hr)

/-- A node was made when a wrapper was built. -/
def Wrapper.Made (w : Wrapper Script Nat) (node : Nat) : Prop :=
  w.before.tree.count < node ∧ node ≤ w.after.tree.count

/-- A wrapper was finished before another one was begun. -/
def Wrapper.Before (w v : Wrapper Script Nat) : Prop :=
  w.after.tree.count ≤ v.before.tree.count

/-- A wrapper that made a node was not finished before one that made it was begun. -/
theorem Wrapper.Before.not_made {w v : Wrapper Script Nat} (h : w.Before v) {node : Nat}
    (hw : w.Made node) : ¬v.Made node := fun hv =>
  Nat.lt_irrefl _ (Nat.lt_of_lt_of_le hv.1 (Nat.le_trans hw.2 h))

/-- Of wrappers that were built one after another, two that made the same node are the same. -/
theorem Wrapper.eq_of_made {ws : List (Wrapper Script Nat)} (h : ws.Pairwise Wrapper.Before)
    {w v : Wrapper Script Nat} (hw : w ∈ ws) (hv : v ∈ ws) {node : Nat} (hmw : w.Made node)
    (hmv : v.Made node) : w = v := by
  have hall := h.imp (S := fun w v => w.Made node → v.Made node → w = v)
    fun hb hw hv => absurd hv (hb.not_made hw)
  have hflip := h.imp (S := fun w v => v.Made node → w.Made node → v = w)
    fun hb hv hw => absurd hv (hb.not_made hw)
  exact hall.forall_of_forall_of_flip (fun _ _ _ _ => rfl) hflip hw hv hmw hmv

/-- Wrappers were built one after another, after one number and before another. -/
structure Timely (first last : Nat) (ws : List (Wrapper Script Nat)) : Prop where
  le : first ≤ last
  ordered : ws.Pairwise Wrapper.Before
  within : ∀ w ∈ ws, first ≤ w.before.tree.count ∧ w.Made w.root ∧ w.after.tree.count ≤ last

namespace Timely

variable {first middle last : Nat} {ws vs : List (Wrapper Script Nat)}

theorem nil (h : first ≤ last) : Timely first last [] := ⟨h, .nil, List.forall_mem_nil _⟩

theorem append (h : Timely first middle ws) (h' : Timely middle last vs) :
    Timely first last (ws ++ vs) := by
  refine ⟨Nat.le_trans h.le h'.le, List.pairwise_append.mpr ⟨h.ordered, h'.ordered, ?_⟩, ?_⟩
  · intro w hw v hv
    exact Nat.le_trans (h.within w hw).2.2 (h'.within v hv).1
  · intro w hw
    rcases List.mem_append.mp hw with hw | hw
    · obtain ⟨h1, h2, h3⟩ := h.within w hw
      exact ⟨h1, h2, Nat.le_trans h3 h'.le⟩
    · obtain ⟨h1, h2, h3⟩ := h'.within w hw
      exact ⟨Nat.le_trans h.le h1, h2, h3⟩

/-- Time in which no wrapper is built can be added in front. -/
theorem of_later (h : Timely middle last ws) (hle : first ≤ middle) : Timely first last ws :=
  (nil hle).append h

/-- Two wrappers that made the same node are the same. -/
theorem eq_of_made (h : Timely first last ws) {w v : Wrapper Script Nat} (hw : w ∈ ws)
    (hv : v ∈ ws) {node : Nat} (hmw : w.Made node) (hmv : v.Made node) : w = v :=
  Wrapper.eq_of_made h.ordered hw hv hmw hmv

end Timely

/-- Opening wrappers takes one wrapper after another. -/
theorem MarksReported.timely {table : TemplateTable} {policy : MarkPolicy} {node : Node}
    {marks : List Mark} {top : Nat} {fates : List (Fate Script Nat)}
    {state after : Guarded Script}
    (h : MarksReported table policy node marks top state fates after) :
    Timely state.tree.count after.tree.count (fates.filterMap Fate.opened?) := by
  induction h with
  | nil => exact .nil (Nat.le_refl _)
  | passed _ _ ih => exact ih
  | @opened mark rest top state rendered built fates after known built_eq next ih =>
    obtain ⟨hg, hok⟩ := makes_of_renderMark built_eq
    obtain ⟨hlt, hroot, -⟩ := hok rendered rfl
    have hone : Timely state.tree.count built.tree.count [⟨mark, rendered, state, built⟩] := by
      refine ⟨hg.1, List.pairwise_singleton _ _, List.forall_mem_singleton.mpr ?_⟩
      refine ⟨Nat.le_refl _, ?_, Nat.le_refl _⟩
      unfold Wrapper.Made Wrapper.root
      dsimp only
      omega
    exact hone.append ih
  | dropped _ failed_eq _ _ ih => exact ih.of_later (grows_of_renderMark failed_eq).1

/-- The inner rendering of a node begins with a new node, and the wrappers in its content are built
after that. -/
def InnerTimely (table : TemplateTable) (policy : MarkPolicy) (node : Node) : Prop :=
  ∀ ⦃state after : Guarded Script⦄ ⦃inner : Nat⦄ ⦃content : List (Report Script Nat)⦄,
    reportNode table policy node state = (.ok (inner, content), after) →
    state.tree.count < inner ∧ Timely inner after.tree.count (wrappersIn content)

/-- Marks that agree with open wrappers open none. -/
theorem sharing_opened {σ η : Type} (table : TemplateTable) (chain : List (Wrapper σ η))
    (marks : List Mark) : (sharing table chain marks).1.filterMap Fate.opened? = [] :=
  List.filterMap_eq_nil_iff.mpr <|
    forall_mem_sharing (fun _ => rfl) (fun _ _ => rfl) table chain marks

/-- Siblings open one wrapper after another, and none of them makes an inner rendering. -/
theorem NodesReported.timely {table : TemplateTable} {policy : MarkPolicy} {target : Nat}
    {chain : List (Wrapper Script Nat)} {nodes : List Node} {state after : Guarded Script}
    {reports : List (Report Script Nat)}
    (h : NodesReported table policy target chain nodes state reports after)
    (hn : ∀ node ∈ nodes, InnerTimely table policy node) :
    Timely state.tree.count after.tree.count (wrappersIn reports) ∧
      ∀ report ∈ reports, state.tree.count < report.inner ∧ report.inner ≤ after.tree.count ∧
        ∀ w ∈ wrappersIn reports, ¬w.Made report.inner := by
  induction h with
  | nil => exact ⟨.nil (Nat.le_refl _), List.forall_mem_nil _⟩
  | @cons chain node rest state shared left opened inside inner content built reports after
      agree marks built_eq next ih =>
    have hshared : shared.filterMap Fate.opened? = [] := by
      have h := sharing_opened table chain node.marks
      rwa [agree] at h
    have hm := marks.timely
    obtain ⟨hlt, hi⟩ := hn node (List.mem_cons_self ..) built_eq
    obtain ⟨hr, hinner⟩ := ih fun node hmem => hn node (List.mem_cons_of_mem _ hmem)
    have hleft : Timely state.tree.count inside.tree.count (opened.filterMap Fate.opened?) := hm
    have hright : Timely inner after.tree.count (wrappersIn content ++ wrappersIn reports) :=
      hi.append hr
    have hws : wrappersIn (⟨shared ++ opened, inner, content⟩ :: reports) =
        opened.filterMap Fate.opened? ++ (wrappersIn content ++ wrappersIn reports) := by
      rw [wrappersIn, Report.wrappers, List.filterMap_append, hshared, List.nil_append,
        List.append_assoc]
    rw [hws]
    refine ⟨hleft.append (hright.of_later (Nat.le_of_lt hlt)), ?_⟩
    intro report hmem
    rcases List.mem_cons.mp hmem with rfl | hmem
    · refine ⟨Nat.lt_of_le_of_lt hleft.le hlt, hright.le, ?_⟩
      intro w hw hmade
      rcases List.mem_append.mp hw with hw | hw
      · have hend := (hleft.within w hw).2.2
        have hle := hmade.2
        dsimp only at hle
        omega
      · have hbegin := (hright.within w hw).1
        have hlt := hmade.1
        dsimp only at hlt
        omega
    · obtain ⟨h1, h2, h3⟩ := hinner report hmem
      have hbuilt : inner ≤ report.inner :=
        Nat.le_trans hi.le (Nat.le_of_lt h1)
      refine ⟨Nat.lt_of_le_of_lt hleft.le (Nat.lt_of_lt_of_le hlt hbuilt), h2, ?_⟩
      intro w hw hmade
      rcases List.mem_append.mp hw with hw | hw
      · have hend := (hleft.within w hw).2.2
        have hle := hmade.2
        omega
      · rcases List.mem_append.mp hw with hw | hw
        · have hend := (hi.within w hw).2.2
          have hle := hmade.2
          exact Nat.lt_irrefl _ (Nat.lt_of_lt_of_le h1 (Nat.le_trans hle hend))
        · exact h3 w hw hmade

/-- Every node begins its inner rendering before the wrappers in its content. -/
theorem innerTimely (table : TemplateTable) (policy : MarkPolicy) (node : Node) :
    InnerTimely table policy node := by
  induction node using Node.induction_content with
  | step node ih =>
    intro state after inner reports h
    obtain ⟨template, rendered, made, hr, rfl, hends⟩ := reportNode_ok h
    have hm := renderGuarded_makes (template node) [node.attrs] state
    rw [hr] at hm
    obtain ⟨hlt, hroot, -⟩ := hm.2 rendered rfl
    have hle : rendered.root ≤ made.tree.count := hroot ▸ hlt
    refine ⟨hroot ▸ Nat.lt_succ_self _, ?_⟩
    rcases hends with ⟨rfl, rfl⟩ | ⟨hole, -, hn⟩
    · exact .nil hle
    · exact (hn.timely ih).1.of_later hle

end RichDoc
