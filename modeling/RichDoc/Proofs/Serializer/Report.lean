import RichDoc.Proofs.Doc.Tokens
import RichDoc.Proofs.Running

/-!
# What became of each mark

The walk over siblings keeps a list of open wrappers and does not say which wrapper a node ended up
in. Here the same walk tells, for each node, what became of each of its marks, and which node its
inner rendering is. Forgetting what it tells gives back the walk that runs, so every successful run
has exactly one report.
-/

namespace RichDoc

/-- A wrapper around nodes: the mark from which it was built, what its template gave, and the
states between which it was built. -/
structure Wrapper (σ η : Type) where
  mark : Mark
  rendered : Rendered η
  before : Guarded σ
  after : Guarded σ

namespace Wrapper

variable {σ η : Type}

/-- The outermost node of a wrapper. -/
def root (w : Wrapper σ η) : η := w.rendered.root

/-- The node that takes what the wrapper wraps: its hole, or itself when it has none. -/
def place (w : Wrapper σ η) : η := w.rendered.hole.getD w.rendered.root

end Wrapper

/-- What became of a mark of a node. -/
inductive Fate (σ η : Type) where
  /-- Its type has no template. -/
  | passed (mark : Mark)
  /-- A wrapper that an earlier sibling opened stayed open for it. -/
  | shared (mark : Mark) (wrapper : Wrapper σ η)
  /-- Its wrapper was built for this node. -/
  | opened (wrapper : Wrapper σ η)
  /-- Its template failed between two states, and it was left out. -/
  | dropped (mark : Mark) (error : Error) (before after : Guarded σ)

namespace Fate

variable {σ η : Type}

/-- The mark of the node. -/
def mark : Fate σ η → Mark
  | .passed mark => mark
  | .shared mark _ => mark
  | .opened wrapper => wrapper.mark
  | .dropped mark _ _ _ => mark

/-- The wrapper that the node has for the mark. -/
def wrapper? : Fate σ η → Option (Wrapper σ η)
  | .shared _ wrapper => some wrapper
  | .opened wrapper => some wrapper
  | _ => none

/-- The states between which the template failed. -/
def loss? : Fate σ η → Option (Guarded σ × Guarded σ)
  | .dropped _ _ before after => some (before, after)
  | _ => none

end Fate

/-- The wrappers of a node, outermost first. -/
def wrappersOf {σ η : Type} (fates : List (Fate σ η)) : List (Wrapper σ η) :=
  fates.filterMap Fate.wrapper?

/-- What became of a node: of its marks in their order, of itself, and of its content. -/
structure Report (σ η : Type) where
  fates : List (Fate σ η)
  /-- The inner rendering of the node. -/
  inner : η
  content : List (Report σ η)

/-- The wrappers around a node, outermost first. -/
def Report.chain {σ η : Type} (report : Report σ η) : List (Wrapper σ η) := wrappersOf report.fates

/-- The states between which templates of a node's marks failed. -/
def Report.losses {σ η : Type} (report : Report σ η) : List (Guarded σ × Guarded σ) :=
  report.fates.filterMap Fate.loss?

/-- The node that takes what comes inside a chain of wrappers. -/
def placeIn {σ η : Type} (target : η) : List (Wrapper σ η) → η
  | [] => target
  | w :: ws => placeIn w.place ws

/-- How far the marks of a node agree with the open wrappers: what became of the marks up to there,
and the marks that are left to open. -/
def sharing {σ η : Type} (table : TemplateTable) :
    List (Wrapper σ η) → List Mark → List (Fate σ η) × List Mark
  | _, [] => ([], [])
  | [], marks => ([], marks)
  | outer :: inner, mark :: marks =>
    if table.hasMark mark.typeName then
      if mark.same outer.mark && outer.mark.isSpanning then
        let (fates, left) := sharing table inner marks
        (.shared mark outer :: fates, left)
      else ([], mark :: marks)
    else
      let (fates, left) := sharing table (outer :: inner) marks
      (.passed mark :: fates, left)

variable {σ η : Type} [TreeBuilder σ η]

/-- Open the wrappers of marks, each inside the one before, and tell what became of each mark. -/
def reportMarks (table : TemplateTable) (policy : MarkPolicy) (node : Node) :
    List Mark → η → Guarding σ (List (Fate σ η))
  | [], _ => pure []
  | mark :: rest, top => do
    let before ← get
    match ← attempt (renderMark table mark node) with
    | .ok none =>
      let fates ← reportMarks table policy node rest top
      return .passed mark :: fates
    | .ok (some rendered) =>
      let after ← get
      appendTo top rendered.root
      let wrapper : Wrapper σ η := ⟨mark, rendered, before, after⟩
      let fates ← reportMarks table policy node rest wrapper.place
      return .opened wrapper :: fates
    | .error error =>
      if policy.stopsAt error then throw error
      else
        let after ← get
        let fates ← reportMarks table policy node rest top
        return .dropped mark error before after :: fates

mutual

/-- Build a node and fill its hole with its content, and tell what became of the content. -/
def reportNode (table : TemplateTable) (policy : MarkPolicy) :
    Node → Guarding σ (η × List (Report σ η))
  | ⟨type, attrs, content, marks, text⟩ =>
    match table.node? type.name with
    | none => throw (.missingTemplate type.name)
    | some template => do
      let rendered ← (template ⟨type, attrs, content, marks, text⟩).renderGuarded [attrs]
      match rendered.hole with
      | none => return (rendered.root, [])
      | some hole =>
        if type.isLeaf then throw (.leafContentHole type.name)
        else
          let reports ← reportNodes table policy hole [] content
          return (rendered.root, reports)

/-- Build siblings inside open wrappers, and tell what became of each. -/
def reportNodes (table : TemplateTable) (policy : MarkPolicy) (target : η)
    (chain : List (Wrapper σ η)) : List Node → Guarding σ (List (Report σ η))
  | [] => pure []
  | node :: rest => do
    let (shared, left) := sharing table chain node.marks
    let top := placeIn target (wrappersOf shared)
    let opened ← reportMarks table policy node left top
    let (inner, content) ← reportNode table policy node
    appendTo (placeIn top (wrappersOf opened)) inner
    let reports ← reportNodes table policy target (wrappersOf (shared ++ opened)) rest
    return ⟨shared ++ opened, inner, content⟩ :: reports

end

/-- The node that takes a fragment: the given one, or a new container. -/
def containerOf : Option η → Guarding σ η
  | some target => pure target
  | none => modifyGet fun state =>
    ((TreeBuilder.createFragment state.tree).1,
      ⟨state.guard, (TreeBuilder.createFragment state.tree).2⟩)

/-- Build a fragment into a node, or into a new container, and tell what became of its nodes. -/
def reportFragment (table : TemplateTable) (policy : MarkPolicy) (fragment : Fragment)
    (target : Option η) : Guarding σ (η × List (Report σ η)) := do
  let target ← containerOf target
  let reports ← reportNodes table policy target [] fragment
  return (target, reports)

/-! ### Chains of wrappers as open wrappers -/

/-- The open wrappers of a chain. Each was appended to the place before it. -/
def openList (target : η) : List (Wrapper σ η) → List (OpenMark η)
  | [] => []
  | w :: ws => ⟨w.mark, target⟩ :: openList w.place ws

/-- A chain of wrappers as the walk keeps it. -/
def openedIn (target : η) (chain : List (Wrapper σ η)) : OpenMarks η :=
  ⟨openList target chain, placeIn target chain⟩

section

omit [TreeBuilder σ η]

@[simp] theorem wrappersOf_nil : wrappersOf ([] : List (Fate σ η)) = [] := rfl

@[simp] theorem wrappersOf_passed (mark : Mark) (fates : List (Fate σ η)) :
    wrappersOf (.passed mark :: fates) = wrappersOf fates := rfl

@[simp] theorem wrappersOf_shared (mark : Mark) (w : Wrapper σ η) (fates : List (Fate σ η)) :
    wrappersOf (.shared mark w :: fates) = w :: wrappersOf fates := rfl

@[simp] theorem wrappersOf_opened (w : Wrapper σ η) (fates : List (Fate σ η)) :
    wrappersOf (.opened w :: fates) = w :: wrappersOf fates := rfl

@[simp] theorem wrappersOf_dropped (mark : Mark) (error : Error) (before after : Guarded σ)
    (fates : List (Fate σ η)) :
    wrappersOf (.dropped mark error before after :: fates) = wrappersOf fates := rfl

@[simp] theorem wrappersOf_append (fates others : List (Fate σ η)) :
    wrappersOf (fates ++ others) = wrappersOf fates ++ wrappersOf others :=
  List.filterMap_append

theorem placeIn_append (target : η) (chain others : List (Wrapper σ η)) :
    placeIn target (chain ++ others) = placeIn (placeIn target chain) others := by
  induction chain generalizing target with
  | nil => rfl
  | cons w ws ih => exact ih w.place

/-- What comes inside wrappers has the place of one of them. -/
theorem placeIn_cons (target : η) (w : Wrapper σ η) (ws : List (Wrapper σ η)) :
    ∃ v ∈ w :: ws, placeIn target (w :: ws) = v.place := by
  induction ws generalizing target w with
  | nil => exact ⟨w, List.mem_singleton.mpr rfl, rfl⟩
  | cons v vs ih =>
    obtain ⟨u, hmem, he⟩ := ih w.place v
    exact ⟨u, List.mem_cons_of_mem _ hmem, he⟩

theorem openedIn_append_singleton (target : η) (chain : List (Wrapper σ η)) (w : Wrapper σ η) :
    openedIn target (chain ++ [w]) =
      ⟨(openedIn target chain).marks ++ [⟨w.mark, (openedIn target chain).top⟩], w.place⟩ := by
  induction chain generalizing target with
  | nil => rfl
  | cons v vs ih =>
    have h := ih v.place
    simp only [openedIn, OpenMarks.mk.injEq] at h
    simp only [openedIn, List.cons_append, openList, placeIn, h.1, h.2]

/-- Only marks of the node are left to open. -/
theorem mem_of_mem_agreeing (table : TemplateTable) {mark : Mark} {marks : List Mark}
    {opened : List (OpenMark η)} (h : mark ∈ (agreeing table opened marks).2.2) :
    mark ∈ marks := by
  induction marks generalizing opened with
  | nil =>
    rw [agreeing] at h
    exact h
  | cons first rest ih =>
    cases opened with
    | nil => exact h
    | cons outer inner =>
      rw [agreeing] at h
      split at h
      · split at h
        · exact List.mem_cons_of_mem _ (ih h)
        · exact h
      · exact List.mem_cons_of_mem _ (ih h)

/-- The marks that agree with a chain keep its wrappers open, and closing the others leads back to
the place inside those that are kept. -/
theorem agreeing_openList (table : TemplateTable) (marks : List Mark) (target : η)
    (chain : List (Wrapper σ η)) :
    ∃ closed, agreeing table (openList target chain) marks =
        (openList target (wrappersOf (sharing table chain marks).1), closed,
          (sharing table chain marks).2) ∧
      ∀ kept, closing kept closed (placeIn target chain) =
        ⟨kept, placeIn target (wrappersOf (sharing table chain marks).1)⟩ := by
  induction marks generalizing target chain with
  | nil =>
    cases chain with
    | nil => exact ⟨[], rfl, fun _ => rfl⟩
    | cons w ws => exact ⟨openList target (w :: ws), rfl, fun _ => rfl⟩
  | cons mark marks ih =>
    cases chain with
    | nil => exact ⟨[], rfl, fun _ => rfl⟩
    | cons w ws =>
      by_cases hm : table.hasMark mark.typeName = true
      · by_cases hs : (mark.same w.mark && w.mark.isSpanning) = true
        · obtain ⟨closed, ha, hc⟩ := ih w.place ws
          refine ⟨closed, ?_, ?_⟩
          · simp only [openList, agreeing, sharing, hm, hs, ite_true, ha, wrappersOf_shared]
          · simpa only [sharing, hm, hs, ite_true, wrappersOf_shared, placeIn] using hc
        · have h : sharing table (w :: ws) (mark :: marks) = ([], mark :: marks) := by
            simp only [sharing, hm, hs, ite_true, Bool.false_eq_true, ite_false]
          refine ⟨openList target (w :: ws), ?_, fun _ => ?_⟩
          · simp only [openList, agreeing, h, hm, hs, ite_true, Bool.false_eq_true, ite_false]
            rfl
          · rw [h]
            rfl
      · obtain ⟨closed, ha, hc⟩ := ih target (w :: ws)
        refine ⟨closed, ?_, ?_⟩
        · simp only [openList, agreeing, sharing, hm, Bool.false_eq_true, ite_false,
            wrappersOf_passed] at ha ⊢
          exact ha
        · simpa only [sharing, hm, Bool.false_eq_true, ite_false, wrappersOf_passed] using hc

end

/-- Opening wrappers is what its report says, with the report left out. -/
theorem openMarks_eq_report (table : TemplateTable) (policy : MarkPolicy) (node : Node)
    (marks : List Mark) (target : η) (chain : List (Wrapper σ η)) :
    (openMarks table policy node marks (openedIn target chain) : Guarding σ (OpenMarks η)) =
      (fun fates => openedIn target (chain ++ wrappersOf fates)) <$>
        reportMarks table policy node marks (placeIn target chain) := by
  induction marks generalizing chain with
  | nil => simp [openMarks, reportMarks]
  | cons mark rest ih =>
    funext state
    rw [openMarks, Building.bind_apply_ok (attempt_apply _ _), reportMarks, map_bind,
      Building.bind_apply_ok (Building.get_apply _), map_bind,
      Building.bind_apply_ok (attempt_apply _ _)]
    rcases hw : (renderMark table mark node : Guarding σ (Option (Rendered η))) state with
      ⟨error | _ | rendered, after⟩
    · by_cases hp : policy.stopsAt error = true
      · simp [hp]
      · simp [hp, ih, Building.get_bind_const]
    · simp [ih]
    · have hc := ih (chain ++ [⟨mark, rendered, state, after⟩])
      simp only [openedIn_append_singleton, placeIn_append, List.append_assoc,
        List.singleton_append] at hc
      simp only [map_bind, bind_pure_comp, Functor.map_map, wrappersOf_opened]
      rw [Building.bind_apply_ok (appendTo_apply _ _ _),
        Building.bind_apply_ok (Building.get_apply _),
        Building.bind_apply_ok (appendTo_apply _ _ _)]
      exact congrFun hc _

mutual

/-- Building a node is what its report says, with the report left out. -/
theorem renderNode_eq_report (table : TemplateTable) (policy : MarkPolicy) : (node : Node) →
    (renderNode table policy node : Guarding σ η) = Prod.fst <$> reportNode table policy node
  | ⟨type, attrs, content, marks, text⟩ => by
    rw [renderNode, reportNode]
    cases table.node? type.name with
    | none => simp
    | some template =>
      simp only [map_bind]
      congr 1
      funext rendered
      cases rendered.hole with
      | none => simp
      | some hole =>
        by_cases hl : type.isLeaf = true
        · simp [hl]
        · have hc := serializeNodes_eq_report table policy hole [] content
          simp only [hl, Bool.false_eq_true, ite_false, bind_pure_comp]
          rw [show (⟨[], hole⟩ : OpenMarks η) = openedIn hole [] from rfl, hc, Functor.map_map,
            Functor.map_map]

/-- Building siblings is what their reports say, with the reports left out. -/
theorem serializeNodes_eq_report (table : TemplateTable) (policy : MarkPolicy) (target : η)
    (chain : List (Wrapper σ η)) : (nodes : List Node) →
    (serializeNodes table policy (openedIn target chain) nodes : Guarding σ Unit) =
      (fun _ => ()) <$> reportNodes table policy target chain nodes
  | [] => by simp [serializeNodes, reportNodes]
  | node :: rest => by
    obtain ⟨closed, ha, hc⟩ := agreeing_openList table node.marks target chain
    rw [serializeNodes, reportNodes]
    simp only [openedIn, ha, hc]
    rw [show (⟨openList target (wrappersOf (sharing table chain node.marks).1),
          placeIn target (wrappersOf (sharing table chain node.marks).1)⟩ : OpenMarks η) =
        openedIn target (wrappersOf (sharing table chain node.marks).1) from rfl,
      openMarks_eq_report, renderNode_eq_report table policy node]
    simp only [bind_map_left, map_bind, bind_pure_comp, wrappersOf_append]
    congr 1
    funext fates
    congr 1
    funext result
    rw [serializeNodes_eq_report table policy target _ rest, Functor.map_map, openedIn,
      placeIn_append]

end

/-- A fragment is built as siblings without open wrappers. -/
theorem serializeFragment_eq (table : TemplateTable) (policy : MarkPolicy) (fragment : Fragment)
    (target : Option η) :
    (serializeFragment table policy fragment target : Guarding σ η) = do
      let target ← containerOf target
      serializeNodes table policy (openedIn (σ := σ) target []) fragment
      return target := by
  cases target <;> rfl

/-- Building a fragment is what its report says, with the report left out. -/
theorem serializeFragment_eq_report (table : TemplateTable) (policy : MarkPolicy)
    (fragment : Fragment) (target : Option η) :
    (serializeFragment table policy fragment target : Guarding σ η) =
      Prod.fst <$> reportFragment table policy fragment target := by
  rw [serializeFragment_eq, reportFragment, map_bind]
  simp only [serializeNodes_eq_report, bind_map_left, map_bind, map_pure]

/-- Every successful run has a report. -/
theorem exists_report {table : TemplateTable} {policy : MarkPolicy} {fragment : Fragment}
    {target : Option η} {state after : Guarded σ} {root : η}
    (h : serializeFragment table policy fragment target state = (.ok root, after)) :
    ∃ reports,
      reportFragment table policy fragment target state = (.ok (root, reports), after) := by
  rw [serializeFragment_eq_report, Building.map_eq_ok] at h
  obtain ⟨⟨node, reports⟩, hr, rfl⟩ := h
  exact ⟨reports, hr⟩

/-! ### A sample -/

/-- A mark without attributes. -/
def sampleMark (name : String) : Mark := ⟨⟨name, 0, true, []⟩, ⟨0, []⟩⟩

/-- A text with marks. -/
def sampleText (text : String) (marks : List String) : Node :=
  ⟨⟨textTypeName, none, none, true, []⟩, ⟨1, []⟩, [], marks.map sampleMark, some text⟩

/-- No map of the text has attributes. -/
theorem maps_sampleText (text : String) (marks : List String) :
    (sampleText text marks).Maps Pool.blank.has := by
  refine .intro rfl (fun mark hmark => ?_) nofun
  obtain ⟨name, -, rfl⟩ := List.mem_map.mp hmark
  rfl

/-- Two marks with wrappers, and one whose template fails after it has built a text. -/
def sampleTable : TemplateTable where
  nodes := [(textTypeName, textTemplate)]
  marks := [("em", fun _ _ => .wrap "em"), ("strong", fun _ _ => .wrap "strong"),
    ("broken", fun _ _ => .element "p" [] [.spec (.text "lost"), .spec (.wrap "not a tag")])]

/-- Texts that share wrappers. -/
def sampleFragment : Fragment :=
  [sampleText "a" ["em"], sampleText "b" ["em", "unknown", "strong"], sampleText "c" ["em"],
    sampleText "d" []]

/-- Texts that share wrappers around a mark that is lost. -/
def sampleBroken : Fragment :=
  [sampleText "a" ["em", "broken"], sampleText "b" ["em", "strong"]]

end RichDoc
