import RichDoc.Build.Script
import RichDoc.Proofs.Serializer.Rules

/-!
# Sharing wrappers is grouping by the outermost mark

The walk over siblings goes from node to node and keeps a list of open wrappers. The same calls
come from a recursion over runs: the siblings that begin with equal marks go into one wrapper, with
that mark taken off, and then the siblings after them are built in the same way. The open wrappers
of the walk are the groups that the recursion has entered and not yet left.
-/

namespace RichDoc

/-- A node with the marks that still have to be wrapped around it. -/
abbrev Pending := Node × List Mark

/-- The marks that have a template. -/
def registered (table : TemplateTable) (marks : List Mark) : List Mark :=
  marks.filter fun mark => table.hasMark mark.typeName

/-- Whether the first mark left of a node is equal to a mark. -/
def leads (mark : Mark) (item : Pending) : Bool :=
  match item.2 with
  | [] => false
  | first :: _ => first.same mark

/-- The nodes that follow the first one into the wrapper of a mark. -/
def runOf (mark : Mark) (items : List Pending) : List Pending :=
  if mark.isSpanning then items.takeWhile (leads mark) else []

/-- The nodes behind a run. -/
def behind (mark : Mark) (items : List Pending) : List Pending :=
  if mark.isSpanning then items.dropWhile (leads mark) else items

/-- A node with its first mark taken off. -/
def withoutFirst (item : Pending) : Pending := (item.1, item.2.tail)

/-- How many nodes and marks are left. -/
def workLeft : List Pending → Nat
  | [] => 0
  | item :: items => item.2.length + 1 + workLeft items

theorem workLeft_cons (item : Pending) (items : List Pending) :
    workLeft (item :: items) = item.2.length + 1 + workLeft items := rfl

theorem workLeft_append (items others : List Pending) :
    workLeft (items ++ others) = workLeft items + workLeft others := by
  induction items with
  | nil => rw [List.nil_append, workLeft, Nat.zero_add]
  | cons item items ih =>
    rw [List.cons_append, workLeft_cons, workLeft_cons, ih]
    omega

/-- A run is a first part of the items. -/
theorem runOf_append_behind (mark : Mark) (items : List Pending) :
    runOf mark items ++ behind mark items = items := by
  unfold behind runOf
  split
  · exact List.takeWhile_append_dropWhile
  · rfl

/-- A node that begins with a spanning mark goes into its run. -/
theorem runOf_cons {mark : Mark} {item : Pending} (h : (leads mark item && mark.isSpanning) = true)
    (items : List Pending) :
    runOf mark (item :: items) = item :: runOf mark items ∧
      behind mark (item :: items) = behind mark items := by
  obtain ⟨hl, hs⟩ := Bool.and_eq_true_iff.mp h
  constructor
  · simp only [runOf, hs, ite_true, List.takeWhile_cons, hl]
  · simp only [behind, hs, ite_true, List.dropWhile_cons, hl]

/-- A node that does not ends the run. -/
theorem runOf_cons_stop {mark : Mark} {item : Pending}
    (h : (leads mark item && mark.isSpanning) = false) (items : List Pending) :
    runOf mark (item :: items) = [] ∧ behind mark (item :: items) = item :: items := by
  rcases Bool.and_eq_false_iff.mp h with hl | hs
  · constructor
    · simp [runOf, hl]
    · simp [behind, hl]
  · constructor
    · simp [runOf, hs]
    · simp [behind, hs]

theorem workLeft_withoutFirst (items : List Pending) :
    workLeft (items.map withoutFirst) ≤ workLeft items := by
  induction items with
  | nil => exact Nat.le_refl _
  | cons item items ih =>
    rw [List.map_cons, workLeft_cons, workLeft_cons]
    simp only [withoutFirst, List.length_tail]
    omega

theorem workLeft_run_add_behind (mark : Mark) (items : List Pending) :
    workLeft ((runOf mark items).map withoutFirst) + workLeft (behind mark items) ≤
      workLeft items := by
  have h := congrArg workLeft (runOf_append_behind mark items)
  rw [workLeft_append] at h
  have hr := workLeft_withoutFirst (runOf mark items)
  omega

theorem registered_cons {table : TemplateTable} {mark : Mark}
    (h : table.hasMark mark.typeName = true) (marks : List Mark) :
    registered table (mark :: marks) = mark :: registered table marks := by
  simp only [registered, List.filter_cons, h, ite_true]

/-- A mark without a template is not seen. -/
theorem registered_cons_skip {table : TemplateTable} {mark : Mark}
    (h : ¬table.hasMark mark.typeName = true) (marks : List Mark) :
    registered table (mark :: marks) = registered table marks := by
  simp only [registered, List.filter_cons, h, Bool.false_eq_true, ite_false]

variable {σ η : Type} [TreeBuilder σ η]

/-- Build nodes run by run: one wrapper for the nodes that begin with one mark, with that mark
taken off inside it, and then the nodes behind them. -/
def group (table : TemplateTable) (policy : MarkPolicy) : List Pending → η → Guarding σ Unit
  | [], _ => pure ()
  | (node, []) :: rest, parent => do
    let inner ← renderNode table policy node
    appendTo parent inner
    group table policy rest parent
  | (node, mark :: marks) :: rest, parent => do
    match ← renderMark table mark node with
    | none => group table policy ((node, marks) :: rest) parent
    | some wrapper =>
      appendTo parent wrapper.root
      group table policy ((node, marks) :: (runOf mark rest).map withoutFirst)
        (wrapper.hole.getD wrapper.root)
      group table policy (behind mark rest) parent
termination_by items => workLeft items
decreasing_by
  · simp only [workLeft_cons]
    omega
  · simp only [workLeft_cons, List.length_cons]
    omega
  · have h := workLeft_run_add_behind mark rest
    simp only [workLeft_cons, List.length_cons]
    omega
  · have h := workLeft_run_add_behind mark rest
    simp only [workLeft_cons, List.length_cons]
    omega

/-- Build a fragment run by run. Marks without a template are left out from the start. -/
def groupFragment (table : TemplateTable) (policy : MarkPolicy) (fragment : Fragment)
    (target : Option η) : Guarding σ η := do
  let target ← containerOf target
  group table policy (fragment.map fun node => (node, registered table node.marks)) target
  return target

/-! ### Open wrappers as unfinished groups -/

/-- Finish the groups of open wrappers: the nodes that begin with the mark of the outermost one go
on inside it, and the others come behind it. -/
def resume (table : TemplateTable) (policy : MarkPolicy) :
    List (Wrapper σ η) → η → List Pending → Guarding σ Unit
  | [], target, items => group table policy items target
  | w :: ws, target, items => do
    resume table policy ws w.place ((runOf w.mark items).map withoutFirst)
    group table policy (behind w.mark items) target

/-- Finish the groups of open wrappers, of which all hold the next node. -/
def resumeAt (table : TemplateTable) (policy : MarkPolicy) (item : Pending) :
    List (Wrapper σ η) → η → List Pending → Guarding σ Unit
  | [], target, items => group table policy (item :: items) target
  | w :: ws, target, items => do
    resumeAt table policy item ws w.place ((runOf w.mark items).map withoutFirst)
    group table policy (behind w.mark items) target

theorem resume_nil (table : TemplateTable) (policy : MarkPolicy) (chain : List (Wrapper σ η))
    (target : η) : (resume table policy chain target [] : Guarding σ Unit) = pure () := by
  induction chain generalizing target with
  | nil => rw [resume, group]
  | cons w ws ih =>
    have hr : runOf w.mark [] = [] := by simp [runOf]
    have hb : behind w.mark [] = [] := by simp [behind]
    rw [resume, hr, hb, List.map_nil, ih, group, pure_bind]

/-- A node without marks left is built in the innermost group. -/
theorem resumeAt_unmarked (table : TemplateTable) (policy : MarkPolicy) (node : Node)
    (chain : List (Wrapper σ η)) (target : η) (items : List Pending) :
    (resumeAt table policy (node, []) chain target items : Guarding σ Unit) = (do
      let inner ← renderNode table policy node
      appendTo (placeIn target chain) inner
      resume table policy chain target items) := by
  induction chain generalizing target items with
  | nil => rw [resumeAt, group]; rfl
  | cons w ws ih =>
    rw [resumeAt, ih]
    simp only [bind_assoc, placeIn, resume]

/-- The first mark left opens a group in the innermost one. -/
theorem resumeAt_marked (table : TemplateTable) (policy : MarkPolicy) (node : Node) (mark : Mark)
    (marks : List Mark) (chain : List (Wrapper σ η)) (target : η) (items : List Pending)
    (before after : Guarded σ) :
    (resumeAt table policy (node, mark :: marks) chain target items : Guarding σ Unit) = (do
      match ← renderMark table mark node with
      | none => resumeAt table policy (node, marks) chain target items
      | some rendered =>
        appendTo (placeIn target chain) rendered.root
        resumeAt table policy (node, marks) (chain ++ [⟨mark, rendered, before, after⟩]) target
          items) := by
  induction chain generalizing target items with
  | nil =>
    rw [resumeAt, group]
    rfl
  | cons w ws ih =>
    rw [resumeAt, ih]
    simp only [bind_assoc]
    congr 1
    funext wrapper
    cases wrapper with
    | none => rfl
    | some rendered => simp only [bind_assoc, placeIn, List.cons_append, resumeAt]

/-- A node that does not go on into the outermost wrapper leaves all of them. -/
theorem resume_stop (table : TemplateTable) (policy : MarkPolicy) {w : Wrapper σ η} {item : Pending}
    (h : (leads w.mark item && w.mark.isSpanning) = false) (ws : List (Wrapper σ η)) (target : η)
    (items : List Pending) :
    (resume table policy (w :: ws) target (item :: items) : Guarding σ Unit) =
      resumeAt table policy item [] target items := by
  obtain ⟨hr, hb⟩ := runOf_cons_stop h items
  rw [resume, hr, hb, List.map_nil, resume_nil, pure_bind, resumeAt]

/-- A node that agrees with open wrappers goes on inside them, and the others are finished. -/
theorem resume_cons (table : TemplateTable) (policy : MarkPolicy) (node : Node)
    (marks : List Mark) (chain : List (Wrapper σ η)) (target : η) (items : List Pending) :
    (resume table policy chain target ((node, registered table marks) :: items) :
        Guarding σ Unit) =
      resumeAt table policy (node, registered table (sharing table chain marks).2)
        (wrappersOf (sharing table chain marks).1) target items := by
  induction marks generalizing chain target items with
  | nil =>
    cases chain with
    | nil => rfl
    | cons w ws => exact resume_stop table policy rfl ws target items
  | cons mark marks ih =>
    cases chain with
    | nil => rfl
    | cons w ws =>
      by_cases hm : table.hasMark mark.typeName = true
      · by_cases hs : (mark.same w.mark && w.mark.isSpanning) = true
        · have hsh : sharing table (w :: ws) (mark :: marks) =
              (.shared mark w :: (sharing table ws marks).1, (sharing table ws marks).2) := by
            simp only [sharing, hm, hs, ite_true]
          rw [registered_cons hm, hsh, wrappersOf_shared, resume, resumeAt]
          have hs' : (leads w.mark (node, mark :: registered table marks) &&
              w.mark.isSpanning) = true := hs
          obtain ⟨hr, hb⟩ := runOf_cons hs' items
          rw [hr, hb, List.map_cons, withoutFirst, List.tail_cons, ih]
        · have hsh : sharing table (w :: ws) (mark :: marks) = ([], mark :: marks) := by
            simp only [sharing, hm, hs, ite_true, Bool.false_eq_true, ite_false]
          rw [hsh, registered_cons hm]
          have hs' : (leads w.mark (node, mark :: registered table marks) &&
              w.mark.isSpanning) = false := Bool.eq_false_iff.mpr hs
          exact resume_stop table policy hs' ws target items
      · have hsh : sharing table (w :: ws) (mark :: marks) =
            (.passed mark :: (sharing table (w :: ws) marks).1,
              (sharing table (w :: ws) marks).2) := by
          simp only [sharing, hm, Bool.false_eq_true, ite_false]
        rw [registered_cons_skip hm, hsh, wrappersOf_passed, ih]

/-- Opening wrappers without a loss opens a group for each mark. -/
theorem MarksReported.resumeAt_eq {table : TemplateTable} {policy : MarkPolicy} {node : Node}
    {marks : List Mark} {top : η} {fates : List (Fate σ η)} {state after : Guarded σ}
    (h : MarksReported table policy node marks top state fates after)
    (hl : fates.filterMap Fate.loss? = []) (target : η) (chain : List (Wrapper σ η))
    (ht : placeIn target chain = top) (items : List Pending) :
    (resumeAt table policy (node, registered table marks) chain target items : Guarding σ Unit)
        state =
      (resumeAt table policy (node, []) (chain ++ wrappersOf fates) target items : Guarding σ Unit)
        after := by
  induction h generalizing chain with
  | nil => rw [wrappersOf_nil, List.append_nil]; rfl
  | passed unknown _ ih =>
    rw [registered_cons_skip (Bool.eq_false_iff.mp unknown), wrappersOf_passed]
    exact ih hl chain ht
  | @opened mark rest top state rendered built fates after known built_eq _ ih =>
    have hc := ih hl (chain ++ [⟨mark, rendered, state, built⟩]) (by rw [placeIn_append]; rfl)
    rw [registered_cons known, resumeAt_marked _ _ _ _ _ _ _ _ state built,
      Building.bind_apply_ok built_eq, ht]
    dsimp only
    rw [Building.bind_apply_ok (appendTo_apply _ _ _), wrappersOf_opened]
    rw [List.append_assoc, List.singleton_append] at hc
    exact hc
  | dropped _ _ _ _ _ => cases hl

/-- A run over siblings without a loss is the same run over groups. -/
theorem NodesReported.resume_eq {table : TemplateTable} {policy : MarkPolicy} {target : η}
    {chain : List (Wrapper σ η)} {nodes : List Node} {state after : Guarded σ}
    {reports : List (Report σ η)}
    (h : NodesReported table policy target chain nodes state reports after)
    (hl : ∀ report ∈ reports, report.losses = []) :
    (resume table policy chain target (nodes.map fun node => (node, registered table node.marks)) :
        Guarding σ Unit) state = (.ok (), after) := by
  induction h with
  | nil =>
    rw [List.map_nil, resume_nil]
    rfl
  | @cons chain node rest state shared left opened inside inner content built reports after
      agree marks built_eq _ ih =>
    have hn : (renderNode table policy node : Guarding σ η) inside = (.ok inner, built) := by
      rw [renderNode_eq_report, Building.map_eq_ok]
      exact ⟨(inner, content), built_eq, rfl⟩
    have ho : opened.filterMap Fate.loss? = [] := by
      have hr := hl _ (List.mem_cons_self ..)
      rw [Report.losses, List.filterMap_append] at hr
      exact (List.append_eq_nil_iff.mp hr).2
    rw [List.map_cons, resume_cons, agree,
      marks.resumeAt_eq ho target (wrappersOf shared) rfl, resumeAt_unmarked,
      Building.bind_apply_ok hn, Building.bind_apply_ok (appendTo_apply _ _ _), ← wrappersOf_append]
    exact ih fun report hr => hl report (List.mem_cons_of_mem _ hr)

/-- Sharing wrappers is grouping: a run that succeeds without a failing template of a mark among
the siblings does exactly what the recursion over runs does, on every kind of tree, so also on one
that records the calls. -/
theorem groupFragment_of_serializeFragment {table : TemplateTable} {policy : MarkPolicy}
    {fragment : Fragment} {target : Option η} {state after : Guarded σ} {root : η}
    (h : serializeFragment table policy fragment target state = (.ok root, after)) :
    ∃ reports, reportFragment table policy fragment target state = (.ok (root, reports), after) ∧
      ((∀ report ∈ reports, report.losses = []) →
        groupFragment table policy fragment target state = (.ok root, after)) := by
  obtain ⟨reports, hr⟩ := exists_report h
  refine ⟨reports, hr, fun hl => ?_⟩
  obtain ⟨node, start, hc, hr⟩ := Building.bind_eq_ok.mp hr
  obtain ⟨others, t, hn, hp⟩ := Building.bind_eq_ok.mp hr
  cases hp
  have hg := (nodesReported hn).resume_eq hl
  rw [resume] at hg
  rw [groupFragment, Building.bind_apply_ok hc, Building.bind_apply_ok hg]
  rfl

set_option maxRecDepth 10000 in
/-- On texts that share wrappers, both give the same calls. -/
theorem groupFragment_of_serializeFragment_sample :
    (serializeFragment sampleTable .strict sampleFragment none : Guarding Script Nat)
        ⟨.empty, .empty⟩ =
      groupFragment sampleTable .strict sampleFragment none ⟨.empty, .empty⟩ := by
  have h : (serializeFragment sampleTable .strict sampleFragment none : Guarding Script Nat)
      ⟨.empty, .empty⟩ = (.ok 1, (serializeFragment sampleTable .strict sampleFragment none
        ⟨.empty, .empty⟩).2) := Prod.ext rfl rfl
  obtain ⟨reports, hr, hg⟩ := groupFragment_of_serializeFragment h
  have hl : ((reportFragment sampleTable .strict sampleFragment none
      (⟨.empty, .empty⟩ : Guarded Script)).1.toOption.map fun result =>
        result.2.all fun report => report.losses.isEmpty) = some true := rfl
  rw [hr] at hl
  rw [hg fun report hmem => ?_]
  · exact h
  · exact List.isEmpty_iff.mp (List.all_eq_true.mp (Option.some.inj hl) report hmem)

end RichDoc
