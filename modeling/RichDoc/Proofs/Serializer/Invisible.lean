import RichDoc.Proofs.Serializer.Grouping

/-!
# Marks without a template are invisible

The walk over siblings meets a mark without a template in two places: it is passed over while the
marks of a node are compared with the open wrappers, and its wrapper is nothing when it is left to
open. In both places the walk goes on as if the mark were not there, so taking such marks off every
node of a document first gives the very same work.
-/

namespace RichDoc

namespace Node

mutual

/-- A node with only some of the marks, at every depth. -/
def keepMarks (keep : Mark → Bool) : Node → Node
  | ⟨type, attrs, content, marks, text⟩ =>
    ⟨type, attrs, keepMarksEach keep content, marks.filter keep, text⟩

/-- Siblings with only some of their marks, at every depth. -/
def keepMarksEach (keep : Mark → Bool) : List Node → List Node
  | [] => []
  | node :: rest => keepMarks keep node :: keepMarksEach keep rest

end

/-- A node without any marks on it or below it. -/
def unmarked (node : Node) : Node := node.keepMarks fun _ => false

theorem keepMarksEach_eq_map (keep : Mark → Bool) (nodes : List Node) :
    keepMarksEach keep nodes = nodes.map (keepMarks keep) := by
  induction nodes with
  | nil => rfl
  | cons node rest ih => rw [keepMarksEach, ih, List.map_cons]

@[simp] theorem keepMarks_marks (keep : Mark → Bool) (node : Node) :
    (node.keepMarks keep).marks = node.marks.filter keep := by
  cases node
  rfl

@[simp] theorem keepMarks_attrs (keep : Mark → Bool) (node : Node) :
    (node.keepMarks keep).attrs = node.attrs := by
  cases node
  rfl

@[simp] theorem keepMarks_type (keep : Mark → Bool) (node : Node) :
    (node.keepMarks keep).type = node.type := by
  cases node
  rfl

@[simp] theorem keepMarks_text (keep : Mark → Bool) (node : Node) :
    (node.keepMarks keep).text = node.text := by
  cases node
  rfl

/-- Taking off some marks first makes no difference to a node without marks. -/
theorem unmarked_keepMarks (keep : Mark → Bool) (node : Node) :
    (node.keepMarks keep).unmarked = node.unmarked := by
  induction node using Node.induction_content with
  | step node ih =>
    obtain ⟨type, attrs, content, marks, text⟩ := node
    have hc : ((content.map (keepMarks keep)).map unmarked) = content.map unmarked := by
      rw [List.map_map]
      exact List.map_congr_left ih
    have he (nodes : List Node) : keepMarksEach (fun _ => false) nodes = nodes.map unmarked :=
      keepMarksEach_eq_map _ nodes
    simp only [unmarked, keepMarks, List.filter_filter, Bool.false_and, he,
      keepMarksEach_eq_map keep, hc]

end Node

namespace TemplateTable

/-- The templates of nodes do not look at marks. -/
def ReadsNoMarks (table : TemplateTable) : Prop :=
  ∀ name template, table.node? name = some template → ∀ node : Node,
    template node = template node.unmarked

/-- Templates that read the type, the attributes and the text of a node only do not look at
marks. -/
theorem readsNoMarks_of_congr {table : TemplateTable}
    (h : ∀ name template, table.node? name = some template → ∀ node other : Node,
      node.type = other.type → node.attrs = other.attrs → node.text = other.text →
        template node = template other) :
    table.ReadsNoMarks := fun name template ht node =>
  h name template ht node node.unmarked (Node.keepMarks_type _ node).symm
    (Node.keepMarks_attrs _ node).symm (Node.keepMarks_text _ node).symm

/-- A template that does not look at marks does not see that some are taken off. -/
theorem ReadsNoMarks.keepMarks {table : TemplateTable} (h : table.ReadsNoMarks) {name : String}
    {template : NodeTemplate} (ht : table.node? name = some template) (keep : Mark → Bool)
    (node : Node) : template (node.keepMarks keep) = template node := by
  rw [h name template ht (node.keepMarks keep), Node.unmarked_keepMarks, ← h name template ht node]

end TemplateTable

/-- Without open wrappers, all marks are left to open. -/
theorem agreeing_nil {η : Type} (table : TemplateTable) (marks : List Mark) :
    agreeing table ([] : List (OpenMark η)) marks = ([], [], marks) := by
  cases marks <;> rfl

/-- Marks without a template do not change how far the others agree with open wrappers. -/
theorem agreeing_registered {η : Type} (table : TemplateTable) (opened : List (OpenMark η))
    (marks : List Mark) :
    agreeing table opened (registered table marks) =
      ((agreeing table opened marks).1, (agreeing table opened marks).2.1,
        registered table (agreeing table opened marks).2.2) := by
  induction marks generalizing opened with
  | nil => cases opened <;> rfl
  | cons mark marks ih =>
    cases opened with
    | nil => simp only [agreeing_nil]
    | cons outer inner =>
      by_cases hm : table.hasMark mark.typeName = true
      · rw [registered_cons hm]
        by_cases hs : (mark.same outer.mark && outer.mark.isSpanning) = true
        · simp only [agreeing, hm, hs, ite_true, ih inner]
        · simp only [agreeing, hm, hs, ite_true, Bool.false_eq_true, ite_false,
            registered_cons hm]
      · rw [registered_cons_skip hm]
        simp only [agreeing, hm, Bool.false_eq_true, ite_false, ih (outer :: inner)]

variable {σ η : Type} [TreeBuilder σ η]

/-- The wrapper of a mark does not depend on the marks of the node. -/
theorem renderMark_keepMarks (table : TemplateTable) (mark : Mark) (keep : Mark → Bool)
    (node : Node) :
    (renderMark table mark (node.keepMarks keep) : Guarding σ (Option (Rendered η))) =
      renderMark table mark node := by
  simp only [renderMark, Node.isInline, Node.keepMarks_attrs, Node.keepMarks_type]

theorem openMarks_keepMarks (table : TemplateTable) (policy : MarkPolicy) (keep : Mark → Bool)
    (node : Node) (marks : List Mark) (opened : OpenMarks η) :
    (openMarks table policy (node.keepMarks keep) marks opened : Guarding σ (OpenMarks η)) =
      openMarks table policy node marks opened := by
  induction marks generalizing opened with
  | nil => rfl
  | cons mark rest ih => simp only [openMarks, renderMark_keepMarks, ih]

/-- Opening a mark without a template does nothing. -/
theorem openMarks_registered (table : TemplateTable) (policy : MarkPolicy) (node : Node)
    (marks : List Mark) (opened : OpenMarks η) :
    (openMarks table policy node (registered table marks) opened : Guarding σ (OpenMarks η)) =
      openMarks table policy node marks opened := by
  induction marks generalizing opened with
  | nil => rfl
  | cons mark rest ih =>
    by_cases hm : table.hasMark mark.typeName = true
    · rw [registered_cons hm]
      simp only [openMarks, ih]
    · rw [registered_cons_skip hm, ih]
      funext state
      have hnone := renderMark_of_not_hasMark (σ := σ) (Bool.eq_false_iff.mpr hm) node state
      rw [openMarks, Building.bind_apply_ok (attempt_apply _ _), hnone]

/-- Whether the type of a mark has a template. -/
def TemplateTable.shows (table : TemplateTable) (mark : Mark) : Bool := table.hasMark mark.typeName

mutual

/-- A node is built in the same way without the marks that have no template. -/
theorem renderNode_keepMarks {table : TemplateTable} (h : table.ReadsNoMarks)
    (policy : MarkPolicy) : (node : Node) →
    (renderNode table policy (node.keepMarks table.shows) : Guarding σ η) =
      renderNode table policy node
  | ⟨type, attrs, content, marks, text⟩ => by
    rw [Node.keepMarks, renderNode, renderNode]
    cases ht : table.node? type.name with
    | none => rfl
    | some template =>
      have htemplate := h.keepMarks ht table.shows ⟨type, attrs, content, marks, text⟩
      rw [Node.keepMarks] at htemplate
      simp only [htemplate, serializeNodes_keepMarks h policy content]

/-- Siblings are built in the same way without the marks that have no template. -/
theorem serializeNodes_keepMarks {table : TemplateTable} (h : table.ReadsNoMarks)
    (policy : MarkPolicy) : (nodes : List Node) → (opened : OpenMarks η) →
    (serializeNodes table policy opened (Node.keepMarksEach table.shows nodes) :
        Guarding σ Unit) =
      serializeNodes table policy opened nodes
  | [], _ => rfl
  | node :: rest, opened => by
    have hmarks : (node.keepMarks table.shows).marks = registered table node.marks :=
      Node.keepMarks_marks _ node
    rw [Node.keepMarksEach, serializeNodes, serializeNodes, hmarks, agreeing_registered]
    simp only [openMarks_keepMarks, openMarks_registered, renderNode_keepMarks h policy node,
      serializeNodes_keepMarks h policy rest]

end

/-- If the templates of nodes do not look at marks, serializing a fragment is serializing the
fragment without the marks, at every depth, that have no template: the same calls and the same
result or error from every state, also where templates of other marks fail. -/
theorem serializeFragment_keepMarks {table : TemplateTable} (h : table.ReadsNoMarks)
    (policy : MarkPolicy) (fragment : Fragment) (target : Option η) :
    (serializeFragment table policy fragment target : Guarding σ η) =
      serializeFragment table policy (fragment.map (Node.keepMarks table.shows)) target := by
  simp only [serializeFragment_eq, openedIn, ← Node.keepMarksEach_eq_map,
    serializeNodes_keepMarks h]

/-- Texts that share wrappers around marks that have no template or are lost. -/
def sampleUnknown : Fragment :=
  [sampleText "a" ["unknown", "em", "broken"], sampleText "b" ["em", "unknown", "strong"]]

/-- A mark without a template neither splits a shared wrapper nor hides that another mark is
lost. -/
theorem serializeFragment_keepMarks_sample :
    sampleTable.ReadsNoMarks ∧
      (serializeFragment sampleTable .lenient sampleUnknown none : Guarding Script Nat) =
        serializeFragment sampleTable .lenient sampleBroken none := by
  have hreads : sampleTable.ReadsNoMarks := by
    refine TemplateTable.readsNoMarks_of_congr fun name template ht node other _ _ htext => ?_
    obtain rfl : textTemplate = template := by
      simp only [sampleTable, TemplateTable.node?, List.lookup_cons, List.lookup_nil] at ht
      split at ht
      · exact Option.some.inj ht
      · cases ht
    simp only [textTemplate, htext]
  exact ⟨hreads, serializeFragment_keepMarks hreads .lenient sampleUnknown none⟩

end RichDoc
