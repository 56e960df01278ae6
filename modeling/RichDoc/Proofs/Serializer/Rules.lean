import RichDoc.Proofs.Serializer.Report

/-!
# The rules of a reported run

A successful run goes through one rule for each mark and one for each node. The rules say what
became of the mark or the node, and between which states.
-/

namespace RichDoc

variable {σ η : Type} [TreeBuilder σ η]

/-- A state after an append. -/
def Guarded.appended (state : Guarded σ) (parent child : η) : Guarded σ :=
  ⟨state.guard, TreeBuilder.appendChild state.tree parent child⟩

/-- What became of marks that were left to open at a place, between two states. -/
inductive MarksReported (table : TemplateTable) (policy : MarkPolicy) (node : Node) :
    List Mark → η → Guarded σ → List (Fate σ η) → Guarded σ → Prop where
  | nil {top state} : MarksReported table policy node [] top state [] state
  | passed {mark rest top state fates after} (unknown : table.hasMark mark.typeName = false)
      (next : MarksReported table policy node rest top state fates after) :
      MarksReported table policy node (mark :: rest) top state (.passed mark :: fates) after
  | opened {mark rest top state rendered built fates after}
      (known : table.hasMark mark.typeName = true)
      (built_eq : renderMark table mark node state = (.ok (some rendered), built))
      (next : MarksReported table policy node rest (Wrapper.place ⟨mark, rendered, state, built⟩)
        (built.appended top rendered.root) fates after) :
      MarksReported table policy node (mark :: rest) top state
        (.opened ⟨mark, rendered, state, built⟩ :: fates) after
  | dropped {mark rest top state error failed fates after}
      (known : table.hasMark mark.typeName = true)
      (failed_eq : renderMark table mark node state =
        ((.error error : Except Error (Option (Rendered η))), failed))
      (goesOn : policy.stopsAt error = false)
      (next : MarksReported table policy node rest top failed fates after) :
      MarksReported table policy node (mark :: rest) top state
        (.dropped mark error state failed :: fates) after

/-- What became of siblings inside a chain of wrappers, between two states. -/
inductive NodesReported (table : TemplateTable) (policy : MarkPolicy) (target : η) :
    List (Wrapper σ η) → List Node → Guarded σ → List (Report σ η) → Guarded σ → Prop where
  | nil {chain state} : NodesReported table policy target chain [] state [] state
  | cons {chain node rest state shared left opened inside inner content built reports after}
      (agree : sharing table chain node.marks = (shared, left))
      (marks : MarksReported table policy node left (placeIn target (wrappersOf shared)) state
        opened inside)
      (built_eq : reportNode table policy node inside = (.ok (inner, content), built))
      (next : NodesReported table policy target (wrappersOf (shared ++ opened)) rest
        (built.appended (placeIn target (wrappersOf (shared ++ opened))) inner) reports after) :
      NodesReported table policy target chain (node :: rest) state
        (⟨shared ++ opened, inner, content⟩ :: reports) after

/-- What holds of marks that are passed and of marks that share a wrapper holds of all marks that
agree with open wrappers. -/
theorem forall_mem_sharing {σ η : Type} {p : Fate σ η → Prop} (hp : ∀ mark, p (.passed mark))
    (hs : ∀ mark w, p (.shared mark w)) (table : TemplateTable) (chain : List (Wrapper σ η))
    (marks : List Mark) : ∀ fate ∈ (sharing table chain marks).1, p fate := by
  induction marks generalizing chain with
  | nil =>
    rw [sharing]
    exact List.forall_mem_nil _
  | cons mark marks ih =>
    cases chain with
    | nil => exact List.forall_mem_nil _
    | cons w ws =>
      rw [sharing]
      split
      · split
        · exact List.forall_mem_cons.mpr ⟨hs mark w, ih ws⟩
        · exact List.forall_mem_nil _
      · exact List.forall_mem_cons.mpr ⟨hp mark, ih (w :: ws)⟩

/-- Marks that agree with open wrappers lose nothing. -/
theorem sharing_losses {σ η : Type} (table : TemplateTable) (chain : List (Wrapper σ η))
    (marks : List Mark) : (sharing table chain marks).1.filterMap Fate.loss? = [] :=
  List.filterMap_eq_nil_iff.mpr <|
    forall_mem_sharing (fun _ => rfl) (fun _ _ => rfl) table chain marks

/-- A mark has no wrapper only if its type has no template. -/
theorem renderMark_of_not_hasMark {table : TemplateTable} {mark : Mark}
    (h : table.hasMark mark.typeName = false) (node : Node) (state : Guarded σ) :
    (renderMark table mark node : Guarding σ (Option (Rendered η))) state = (.ok none, state) := by
  rw [TemplateTable.hasMark, Option.isSome_eq_false_iff, Option.isNone_iff_eq_none] at h
  rw [renderMark, h]
  rfl

/-- With a template, a mark has a wrapper or its template fails. -/
theorem renderMark_ne_none {table : TemplateTable} {mark : Mark}
    (h : table.hasMark mark.typeName = true) (node : Node) (state after : Guarded σ) :
    (renderMark table mark node : Guarding σ (Option (Rendered η))) state ≠ (.ok none, after) := by
  obtain ⟨template, ht⟩ := Option.isSome_iff_exists.mp h
  rw [renderMark, ht]
  intro he
  obtain ⟨rendered, t, _, hp⟩ := Building.bind_eq_ok.mp he
  cases hp

/-- Every successful run over marks follows the rules. -/
theorem marksReported {table : TemplateTable} {policy : MarkPolicy} {node : Node}
    {marks : List Mark} {top : η} {state after : Guarded σ} {fates : List (Fate σ η)}
    (h : reportMarks table policy node marks top state = (.ok fates, after)) :
    MarksReported table policy node marks top state fates after := by
  induction marks generalizing top state fates with
  | nil =>
    cases h
    exact .nil
  | cons mark rest ih =>
    rw [reportMarks, Building.bind_apply_ok (Building.get_apply _),
      Building.bind_apply_ok (attempt_apply _ _)] at h
    by_cases hm : table.hasMark mark.typeName = true
    · rcases hw : (renderMark table mark node : Guarding σ (Option (Rendered η))) state with
        ⟨error | _ | rendered, built⟩
      · simp only [hw] at h
        by_cases hp : policy.stopsAt error = true
        · simp only [hp, ite_true] at h
          cases h
        · simp only [hp, Bool.false_eq_true, ite_false] at h
          rw [Building.bind_apply_ok (Building.get_apply _)] at h
          obtain ⟨others, t, hr, hf⟩ := Building.bind_eq_ok.mp h
          cases hf
          exact .dropped hm hw (Bool.eq_false_iff.mpr hp) (ih hr)
      · exact absurd hw (renderMark_ne_none hm node state built)
      · simp only [hw] at h
        rw [Building.bind_apply_ok (Building.get_apply _),
          Building.bind_apply_ok (appendTo_apply _ _ _)] at h
        obtain ⟨others, t, hr, hf⟩ := Building.bind_eq_ok.mp h
        cases hf
        exact .opened hm hw (ih hr)
    · have hm' := Bool.eq_false_iff.mpr hm
      simp only [renderMark_of_not_hasMark hm'] at h
      obtain ⟨others, t, hr, hf⟩ := Building.bind_eq_ok.mp h
      cases hf
      exact .passed hm' (ih hr)

/-- Every successful run over siblings follows the rules. -/
theorem nodesReported {table : TemplateTable} {policy : MarkPolicy} {target : η}
    {chain : List (Wrapper σ η)} {nodes : List Node} {state after : Guarded σ}
    {reports : List (Report σ η)}
    (h : reportNodes table policy target chain nodes state = (.ok reports, after)) :
    NodesReported table policy target chain nodes state reports after := by
  induction nodes generalizing chain state reports with
  | nil =>
    rw [reportNodes] at h
    cases h
    exact .nil
  | cons node rest ih =>
    rw [reportNodes] at h
    obtain ⟨opened, inside, hm, h⟩ := Building.bind_eq_ok.mp h
    obtain ⟨⟨inner, content⟩, built, hn, h⟩ := Building.bind_eq_ok.mp h
    dsimp only at h
    rw [Building.bind_apply_ok (appendTo_apply _ _ _)] at h
    obtain ⟨others, t, hr, hf⟩ := Building.bind_eq_ok.mp h
    cases hf
    refine .cons rfl (marksReported hm) hn (ih ?_)
    rw [wrappersOf_append, placeIn_append, ← wrappersOf_append]
    exact hr

/-- What holds of a node whenever it holds of all nodes in its content holds of every node. -/
theorem Node.induction_content {p : Node → Prop}
    (step : ∀ node, (∀ child ∈ node.content, p child) → p node) (node : Node) : p node := by
  cases node with
  | mk type attrs content marks text =>
    exact step _ fun child _ => Node.induction_content step child
termination_by sizeOf node

/-- A node is built through its template, and its content goes into the hole, if there is one. -/
theorem reportNode_ok {table : TemplateTable} {policy : MarkPolicy} : {node : Node} →
    {state after : Guarded σ} → {inner : η} → {content : List (Report σ η)} →
    reportNode table policy node state = (.ok (inner, content), after) →
    ∃ (template : NodeTemplate) (rendered : Rendered η) (made : Guarded σ),
      (Spec.renderGuarded (template node) [node.attrs] : Guarding σ (Rendered η)) state =
        (.ok rendered, made) ∧
      inner = rendered.root ∧
      ((content = [] ∧ after = made) ∨
        ∃ hole, rendered.hole = some hole ∧
          NodesReported table policy hole [] node.content made content after)
  | ⟨type, attrs, content, marks, text⟩, state, after, inner, reports, h => by
    rw [reportNode] at h
    cases ht : table.node? type.name with
    | none =>
      rw [ht] at h
      cases h
    | some template =>
      simp only [ht] at h
      obtain ⟨rendered, made, hr, h⟩ := Building.bind_eq_ok.mp h
      refine ⟨template, rendered, made, hr, ?_⟩
      cases hh : rendered.hole with
      | none =>
        simp only [hh] at h
        cases h
        exact ⟨rfl, Or.inl ⟨rfl, rfl⟩⟩
      | some hole =>
        simp only [hh] at h
        by_cases hl : type.isLeaf = true
        · simp only [hl, ite_true] at h
          cases h
        · simp only [hl, Bool.false_eq_true, ite_false] at h
          obtain ⟨others, t, hn, hp⟩ := Building.bind_eq_ok.mp h
          cases hp
          exact ⟨rfl, Or.inr ⟨hole, rfl, nodesReported hn⟩⟩

end RichDoc
