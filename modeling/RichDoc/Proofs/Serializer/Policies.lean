import RichDoc.Proofs.Serializer.Lockstep
import RichDoc.Proofs.Serializer.Rules
import RichDoc.Proofs.Template.Failures

/-!
# The two policies for marks

A template of a mark that fails is always the template's fault, so under the strict policy every
such failure ends the work. Up to the first one both policies do the same. From there the lenient
run goes on, and its calls only add to those that the strict run has made.
-/

namespace RichDoc

variable {σ η α β γ : Type}

/-! ### The failures of a run, in order -/

/-- The failure of a mark's template, and the state that it left. -/
def Fate.failure? : Fate σ η → Option (Error × Guarded σ)
  | .dropped _ error _ after => some (error, after)
  | _ => none

mutual

/-- The failures of marks on a node and everywhere in its content, in the order in which they
happened: its own marks are opened before its content is built. -/
def Report.failures : Report σ η → List (Error × Guarded σ)
  | ⟨fates, _, content⟩ => fates.filterMap Fate.failure? ++ failuresIn content

/-- The failures of marks on siblings and everywhere in their content. -/
def failuresIn : List (Report σ η) → List (Error × Guarded σ)
  | [] => []
  | report :: rest => report.failures ++ failuresIn rest

end

/-- Marks that agree with open wrappers fail nowhere. -/
theorem sharing_failures (table : TemplateTable) (chain : List (Wrapper σ η)) (marks : List Mark) :
    (sharing table chain marks).1.filterMap Fate.failure? = [] :=
  List.filterMap_eq_nil_iff.mpr <|
    forall_mem_sharing (fun _ => rfl) (fun _ _ => rfl) table chain marks

/-- The failures that a run reports, if it succeeds. -/
def failuresOf (reports : α → List (Report σ η)) (run : Except Error α × Guarded σ) :
    List (Error × Guarded σ) :=
  match run.1 with
  | .ok a => failuresIn (reports a)
  | .error _ => []

/-! ### Runs that are cut short -/

/-- One run is another one, or stops where the first of the other one's failures happened. The
other one has not taken any call back since. -/
inductive Cut (failures : α → List (Error × Guarded (Traced σ η))) :
    Except Error α × Guarded (Traced σ η) → Except Error α × Guarded (Traced σ η) → Prop where
  | same {run} (none : ∀ a, run.1 = .ok a → failures a = []) : Cut failures run run
  | stopped {error : Error} {state : Guarded (Traced σ η)} {run}
      (calls : state.tree.calls <+: run.2.tree.calls)
      (first : ∀ a, run.1 = .ok a → (failures a).head? = some (error, state)) :
      Cut failures (.error error, state) run

/-- Recorded calls are never taken back by some work. -/
abbrev Guarding.KeepsCalls (work : Guarding (Traced σ η) α) : Prop :=
  work.Keeps fun s t => s.calls <+: t.calls

namespace Cut

variable {state : Guarded (Traced σ η)} {strict lenient : Guarding (Traced σ η) α}
  {failures : α → List (Error × Guarded (Traced σ η))}
  {more : β → List (Error × Guarded (Traced σ η))}

theorem map {f : α → β} (h : Cut (fun a => more (f a)) (strict state) (lenient state)) :
    Cut more ((f <$> strict) state) ((f <$> lenient) state) := by
  rw [Building.map_apply, Building.map_apply]
  generalize strict state = first at h
  generalize lenient state = second at h
  cases h with
  | same hnone =>
    refine .same fun b hb => ?_
    obtain ⟨a, ha, rfl⟩ := Building.ok_of_map hb
    exact hnone a ha
  | stopped hcalls hfirst =>
    refine .stopped hcalls fun b hb => ?_
    obtain ⟨a, ha, rfl⟩ := Building.ok_of_map hb
    exact hfirst a ha

/-- What both policies do first does not matter. -/
theorem after {work : Guarding (Traced σ η) α} {next next' : α → Guarding (Traced σ η) β}
    (hn : ∀ a t, Cut more (next a t) (next' a t)) :
    Cut more ((work >>= next) state) ((work >>= next') state) := by
  rcases hw : work state with ⟨error | a, t⟩
  · rw [Building.bind_apply_error hw, Building.bind_apply_error hw]
    exact .same nofun
  · rw [Building.bind_apply_ok hw, Building.bind_apply_ok hw]
    exact hn a t

/-- The failures of the first part come before those of the second. -/
theorem bind (behind : α → β → List (Error × Guarded (Traced σ η)))
    {total : γ → List (Error × Guarded (Traced σ η))} {f : α → β → γ}
    {next next' : α → Guarding (Traced σ η) β}
    (htotal : ∀ a b, total (f a b) = failures a ++ behind a b)
    (h : Cut failures (strict state) (lenient state))
    (hn : ∀ a t, Cut (behind a) (next a t) (next' a t)) (hk : ∀ a, (next' a).KeepsCalls) :
    Cut total ((strict >>= fun a => f a <$> next a) state)
      ((lenient >>= fun a => f a <$> next' a) state) := by
  rcases hs : strict state with ⟨first, s⟩
  rcases hl : lenient state with ⟨error | a, t⟩
  · rw [hs, hl] at h
    rw [Building.bind_apply_error hl]
    cases h with
    | same _ =>
      rw [Building.bind_apply_error hs]
      exact .same nofun
    | stopped hcalls _ =>
      rw [Building.bind_apply_error hs]
      exact .stopped hcalls nofun
  · rw [hs, hl] at h
    rw [Building.bind_apply_ok hl]
    cases h with
    | same hnone =>
      rw [Building.bind_apply_ok hs]
      refine .map ?_
      have hbehind : (fun b => total (f a b)) = behind a := by
        funext b
        rw [htotal, hnone a rfl, List.nil_append]
      rw [hbehind]
      exact hn a _
    | stopped hcalls hfirst =>
      rw [Building.bind_apply_error hs, Building.map_apply]
      refine .stopped (hcalls.trans (hk a t)) fun c hc => ?_
      obtain ⟨b, -, rfl⟩ := Building.ok_of_map hc
      rw [htotal, List.head?_append, hfirst a rfl]
      rfl

/-- A run without failures is not cut. -/
theorem eq_of_ok {first second : Except Error α × Guarded (Traced σ η)}
    (h : Cut failures first second) {a : α} (hok : second.1 = .ok a) (hf : failures a = []) :
    first = second := by
  cases h with
  | same _ => rfl
  | stopped _ hfirst =>
    have hhead := hfirst a hok
    rw [hf] at hhead
    cases hhead

end Cut

/-- A strict run is the lenient one, stopped at the first of its failures if it has any. -/
structure StopsAtFirst (failures : List (Error × Guarded (Traced σ η)))
    (strict lenient : Except Error α × Guarded (Traced σ η)) : Prop where
  /-- The calls of the strict run are the first calls of the lenient run. -/
  calls : strict.2.tree.calls <+: lenient.2.tree.calls
  /-- A strict run that succeeds is the lenient run. -/
  ok : ∀ a, strict.1 = .ok a → lenient = strict
  error : (∃ error, strict.1 = .error error) ↔ (∃ error, lenient.1 = .error error) ∨ failures ≠ []
  /-- The first failure is the one of the strict run, which leaves the state as that failure did. -/
  first : ∀ failure ∈ failures.head?, strict = (.error failure.1, failure.2)

namespace StopsAtFirst

variable {state : Guarded (Traced σ η)} {strict lenient : Guarding (Traced σ η) α}
  {failures : List (Error × Guarded (Traced σ η))}

theorem of_cut {reports : α → List (Report (Traced σ η) η)}
    {first second : Except Error α × Guarded (Traced σ η)}
    (h : Cut (fun a => failuresIn (reports a)) first second) :
    StopsAtFirst (failuresOf reports second) first second := by
  obtain ⟨result, t⟩ := second
  cases h with
  | same hnone =>
    have hnil : failuresOf reports (result, t) = [] := by
      unfold failuresOf
      cases result with
      | error error => rfl
      | ok a => exact hnone a rfl
    rw [hnil]
    refine ⟨List.prefix_refl _, fun _ _ => rfl, ?_, nofun⟩
    exact ⟨Or.inl, fun h => h.resolve_right fun hne => hne rfl⟩
  | stopped hcalls hfirst =>
    refine ⟨hcalls, nofun, ?_, ?_⟩
    · refine ⟨fun _ => ?_, fun _ => ⟨_, rfl⟩⟩
      cases result with
      | error error => exact Or.inl ⟨error, rfl⟩
      | ok a =>
        have hhead := hfirst a rfl
        refine Or.inr fun hnil => ?_
        rw [show failuresIn (reports a) = [] from hnil] at hhead
        cases hhead
    · intro failure hmem
      cases result with
      | error error => cases hmem
      | ok a =>
        obtain rfl := Option.some.inj ((hfirst a rfl).symm.trans hmem)
        rfl

/-- What follows is the same under both policies. -/
theorem bind {next : α → Guarding (Traced σ η) β}
    (h : StopsAtFirst failures (strict state) (lenient state)) (hk : ∀ a, (next a).KeepsCalls) :
    StopsAtFirst failures ((strict >>= next) state) ((lenient >>= next) state) := by
  rcases hs : strict state with ⟨error | a, s⟩
  · rw [hs] at h
    rw [Building.bind_apply_error hs]
    refine ⟨?_, nofun, ⟨fun _ => ?_, fun _ => ⟨_, rfl⟩⟩, fun failure hmem => ?_⟩
    · have hcalls := h.calls
      rcases hl : lenient state with ⟨other | a, t⟩
      · rw [hl] at hcalls
        rw [Building.bind_apply_error hl]
        exact hcalls
      · rw [hl] at hcalls
        rw [Building.bind_apply_ok hl]
        exact hcalls.trans (hk a t)
    · refine (h.error.mp ⟨error, rfl⟩).imp_left fun ⟨other, hl⟩ => ⟨other, ?_⟩
      rw [Building.bind_apply_error (Prod.ext hl rfl)]
    · cases h.first failure hmem
      rfl
  · have heq := h.ok a (by rw [hs])
    have hnil : failures = [] := by
      by_contra hne
      obtain ⟨error, he⟩ := h.error.mpr (Or.inr hne)
      rw [hs] at he
      cases he
    rw [Building.bind_apply, Building.bind_apply, heq, hnil]
    refine ⟨List.prefix_refl _, fun _ _ => rfl, ?_, nofun⟩
    exact ⟨Or.inl, fun h => h.resolve_right fun hne => hne rfl⟩

end StopsAtFirst

/-! ### Strict and lenient runs -/

variable [TreeBuilder σ η]

/-- When the template of a mark fails, the template is to blame. -/
theorem isTemplateError_of_renderMark {table : TemplateTable} {mark : Mark} {node : Node}
    {state after : Guarded σ} {error : Error}
    (h : renderMark table mark node state =
      ((.error error : Except Error (Option (Rendered η))), after)) :
    error.isTemplateError = true := by
  have hblame : (renderMark table mark node :
      Guarding σ (Option (Rendered η))).BlamesTemplate := by
    unfold renderMark
    cases table.mark? mark.typeName with
    | none => exact .pure none
    | some template => exact .bind (.renderGuarded _ _) fun _ => .pure _
  exact hblame state error (by rw [h])

/-- The wrappers of marks are opened up to the first one whose template fails. -/
theorem reportMarks_cut (table : TemplateTable) (node : Node) (marks : List Mark) (top : η)
    (state : Guarded (Traced σ η)) :
    Cut (fun fates : List (Fate (Traced σ η) η) => fates.filterMap Fate.failure?)
      (reportMarks table .strict node marks top state)
      (reportMarks table .lenient node marks top state) := by
  induction marks generalizing top state with
  | nil =>
    refine .same fun fates hf => ?_
    cases hf
    rfl
  | cons mark rest ih =>
    rw [reportMarks, reportMarks, Building.bind_apply_ok (Building.get_apply _),
      Building.bind_apply_ok (Building.get_apply _), Building.bind_apply_ok (attempt_apply _ _),
      Building.bind_apply_ok (attempt_apply _ _)]
    rcases hw : (renderMark table mark node :
      Guarding (Traced σ η) (Option (Rendered η))) state with ⟨error | _ | rendered, after⟩
    · have hstops : MarkPolicy.strict.stopsAt error = true := isTemplateError_of_renderMark hw
      simp only [hstops, ite_true, bind_pure_comp]
      have hkeeps := Guarding.Keeps.map (fun fates => Fate.dropped mark error state after :: fates)
        (Guarding.Keeps.reportMarks progress_calls table .lenient node rest top)
      refine .stopped (hkeeps after) fun fates hf => ?_
      rw [MarkPolicy.stopsAt, if_neg Bool.false_ne_true,
        Building.bind_apply_ok (Building.get_apply _), Building.map_apply] at hf
      obtain ⟨others, -, rfl⟩ := Building.ok_of_map hf
      rfl
    · simp only [bind_pure_comp]
      exact .map (ih top after)
    · simp only [bind_pure_comp]
      rw [Building.bind_apply_ok (Building.get_apply _),
        Building.bind_apply_ok (Building.get_apply _),
        Building.bind_apply_ok (appendTo_apply _ _ _),
        Building.bind_apply_ok (appendTo_apply _ _ _)]
      exact .map (ih _ _)

/-- Siblings are built one after another: the marks of the first, the first itself, and then the
others. -/
theorem reportNodes_cons (table : TemplateTable) (policy : MarkPolicy) (target : η)
    (chain : List (Wrapper σ η)) (node : Node) (rest : List Node) :
    (reportNodes table policy target chain (node :: rest) : Guarding σ (List (Report σ η))) =
      reportMarks table policy node (sharing table chain node.marks).2
          (placeIn target (wrappersOf (sharing table chain node.marks).1)) >>= fun opened =>
        (fun built => ⟨(sharing table chain node.marks).1 ++ opened, built.1.1, built.1.2⟩ ::
            built.2) <$>
          (reportNode table policy node >>= fun result => (fun reports => (result, reports)) <$>
            (appendTo (placeIn (placeIn target (wrappersOf (sharing table chain node.marks).1))
                (wrappersOf opened)) result.1 >>= fun _ =>
              reportNodes table policy target
                (wrappersOf ((sharing table chain node.marks).1 ++ opened)) rest)) := by
  rw [reportNodes]
  simp only [map_bind, bind_pure_comp, Functor.map_map]

mutual

/-- A node is built up to the first failure in its content. -/
theorem reportNode_cut (table : TemplateTable) : (node : Node) →
    (state : Guarded (Traced σ η)) →
    Cut (fun result : η × List (Report (Traced σ η) η) => failuresIn result.2)
      (reportNode table .strict node state) (reportNode table .lenient node state)
  | ⟨type, attrs, content, marks, text⟩, state => by
    rw [reportNode, reportNode]
    cases table.node? type.name with
    | none => exact .same nofun
    | some template =>
      refine .after fun rendered made => ?_
      cases rendered.hole with
      | none =>
        refine .same fun result hr => ?_
        cases hr
        rfl
      | some hole =>
        dsimp only
        split
        · exact .same nofun
        · simp only [bind_pure_comp]
          exact .map (reportNodes_cut table hole [] content made)

/-- Siblings are built up to the first failure on them or in their content. -/
theorem reportNodes_cut (table : TemplateTable) (target : η)
    (chain : List (Wrapper (Traced σ η) η)) : (nodes : List Node) →
    (state : Guarded (Traced σ η)) →
    Cut failuresIn (reportNodes table .strict target chain nodes state)
      (reportNodes table .lenient target chain nodes state)
  | [], state => by
    rw [reportNodes, reportNodes]
    refine .same fun reports hr => ?_
    cases hr
    rfl
  | node :: rest, state => by
    rw [reportNodes_cons, reportNodes_cons]
    have hkeeps : ∀ (parent inner : η) (chain : List (Wrapper (Traced σ η) η)),
        Guarding.KeepsCalls (appendTo parent inner >>= fun _ =>
          reportNodes table .lenient target chain rest) := fun parent inner chain =>
      .bind progress_calls (.appendTo progress_calls parent inner) fun _ =>
        .reportNodes progress_calls table .lenient target chain rest
    refine Cut.bind (fun _ built => failuresIn built.1.2 ++ failuresIn built.2) ?_
      (reportMarks_cut table node _ _ state) (fun opened inside => ?_) fun opened => ?_
    · intro opened built
      rw [failuresIn, Report.failures, List.filterMap_append, sharing_failures, List.nil_append,
        List.append_assoc]
    · refine Cut.bind (fun _ reports => failuresIn reports) (fun _ _ => rfl)
        (reportNode_cut table node inside) (fun result built => ?_) fun result => hkeeps _ _ _
      exact .after fun _ t => reportNodes_cut table target _ rest t
    · exact .bind progress_calls (.reportNode progress_calls table .lenient node) fun result =>
        .map _ (hkeeps _ _ _)

end

/-- A fragment is built up to the first failure in it. -/
theorem reportFragment_cut (table : TemplateTable) (fragment : Fragment) (target : Option η)
    (state : Guarded (Traced σ η)) :
    Cut (fun result : η × List (Report (Traced σ η) η) => failuresIn result.2)
      (reportFragment table .strict fragment target state)
      (reportFragment table .lenient fragment target state) := by
  unfold reportFragment
  refine .after fun node start => ?_
  simp only [bind_pure_comp]
  exact .map (reportNodes_cut table node [] fragment start)

/-- Under the strict policy a fragment and a node are built as under the lenient one, up to the
first mark that the lenient run drops, at whatever depth. So the strict run fails if and only if
the lenient one fails or drops a mark, and otherwise they are the same. -/
theorem strict_stopsAtFirst (table : TemplateTable) (state : Guarded (Traced σ η)) :
    (∀ (fragment : Fragment) (target : Option η),
      StopsAtFirst
        (failuresOf Prod.snd (reportFragment table .lenient fragment target state))
        (serializeFragment table .strict fragment target state)
        (serializeFragment table .lenient fragment target state)) ∧
      ∀ node : Node,
        StopsAtFirst (failuresOf Prod.snd (reportNode table .lenient node state))
          (serializeNode table .strict node state) (serializeNode table .lenient node state) := by
  constructor
  · intro fragment target
    have hstops := StopsAtFirst.of_cut (reportFragment_cut table fragment target state)
    rw [serializeFragment_eq_report, serializeFragment_eq_report, ← bind_pure_comp,
      ← bind_pure_comp]
    exact hstops.bind fun _ _ => List.prefix_refl _
  · intro node
    have hstops := StopsAtFirst.of_cut (reportNode_cut table node state)
    unfold serializeNode
    rw [renderNode_eq_report, renderNode_eq_report]
    simp only [bind_map_left]
    exact hstops.bind fun result => .wrapMarks progress_calls table node node.marks result.1

end RichDoc
