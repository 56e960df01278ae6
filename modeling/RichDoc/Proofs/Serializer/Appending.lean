import RichDoc.Proofs.Build.Appending
import RichDoc.Proofs.Serializer.Lawful
import RichDoc.Proofs.Serializer.Single

/-!
# Serializing into a node that has children

A fragment that is built into a node of a store adds children to it, and touches nothing else that
was there, wherever it ends. Each of its nodes adds one child or none: its outermost wrapper if that
was opened for it, its inner rendering if it has no wrapper, and nothing if it goes on inside a
wrapper of the nodes before it. Where the work fails, the wrappers that were already open for the
node that fails are there, and the rest of what was built for it hangs below them or on nothing.
-/

namespace RichDoc

open Script

/-! ### What a node adds -/

section

variable {σ η : Type}

/-- The node that becomes a child of the target, given what has become of the marks of a node:
its outermost wrapper if that was opened for it, and the inner node if there is no wrapper. -/
def topOf (inner : Option η) : List (Fate σ η) → Option η
  | [] => inner
  | .opened wrapper :: _ => some wrapper.root
  | .shared _ _ :: _ => none
  | .passed _ :: rest | .dropped _ _ _ _ :: rest => topOf inner rest

/-- The node that a node adds to the children of the target. The others go on inside a wrapper that
is there already. -/
def Report.top? (report : Report σ η) : Option η := topOf (some report.inner) report.fates

/-- The nodes that siblings add to the children of the target, in order. -/
def topsOf (reports : List (Report σ η)) : List η := reports.filterMap Report.top?

theorem topsOf_cons (report : Report σ η) (reports : List (Report σ η)) :
    topsOf (report :: reports) = report.top?.toList ++ topsOf reports := by
  rw [topsOf, topsOf, List.filterMap_eq_flatMap_toList, List.filterMap_eq_flatMap_toList,
    List.flatMap_cons]

/-- What further marks add depends on whether there was a wrapper. -/
theorem topOf_append (inner : Option η) (fates more : List (Fate σ η)) :
    (topOf inner (fates ++ more)).toList = (topOf none fates).toList ++
      if wrappersOf fates = [] then (topOf inner more).toList else [] := by
  induction fates with
  | nil => rw [wrappersOf_nil, if_pos rfl]; rfl
  | cons fate rest ih =>
    cases fate with
    | passed mark => exact ih
    | dropped mark error before after => exact ih
    | shared mark wrapper => rw [wrappersOf_shared, if_neg (List.cons_ne_nil _ _)]; rfl
    | opened wrapper => rw [wrappersOf_opened, if_neg (List.cons_ne_nil _ _)]; rfl

/-- Marks that agree with open wrappers add nothing. -/
theorem topOf_sharing (table : TemplateTable) (chain : List (Wrapper σ η)) (marks : List Mark) :
    topOf none (sharing table chain marks).1 = none := by
  induction marks generalizing chain with
  | nil =>
    rw [sharing]
    rfl
  | cons mark marks ih =>
    cases chain with
    | nil => rfl
    | cons w ws =>
      rw [sharing]
      split
      · split
        · rfl
        · rfl
      · exact ih (w :: ws)

end

/-! ### Where the work stops -/

section

variable {σ η : Type} [TreeBuilder σ η]

/-- A node fails inside a chain of wrappers: a template of its marks fails and the policy ends the
work there, or the node itself fails once its wrappers are open. What had become of its marks by
then is told. -/
inductive NodeStopped (table : TemplateTable) (policy : MarkPolicy) (target : η)
    (chain : List (Wrapper σ η)) (node : Node) (state : Guarded σ) :
    List (Fate σ η) → Error → Guarded σ → Prop where
  | mark {shared tried mark others fates inside error after}
      (agree : sharing table chain node.marks = (shared, tried ++ mark :: others))
      (marks : MarksReported table policy node tried (placeIn target (wrappersOf shared)) state
        fates inside)
      (failed_eq : renderMark table mark node inside =
        ((.error error : Except Error (Option (Rendered η))), after))
      (stops : policy.stopsAt error = true) :
      NodeStopped table policy target chain node state (shared ++ fates) error after
  | inner {shared left fates inside error after}
      (agree : sharing table chain node.marks = (shared, left))
      (marks : MarksReported table policy node left (placeIn target (wrappersOf shared)) state
        fates inside)
      (failed_eq : reportNode table policy node inside =
        ((.error error : Except Error (η × List (Report σ η))), after)) :
      NodeStopped table policy target chain node state (shared ++ fates) error after

/-- Siblings are built inside a chain of wrappers up to one that fails. What became of those before
it is told, and what had become of the marks of the one that fails. -/
inductive NodesStopped (table : TemplateTable) (policy : MarkPolicy) (target : η) :
    List (Wrapper σ η) → List Node → Guarded σ → List (Report σ η) → List (Fate σ η) → Error →
      Guarded σ → Prop where
  | here {chain node rest state fates error after}
      (stopped : NodeStopped table policy target chain node state fates error after) :
      NodesStopped table policy target chain (node :: rest) state [] fates error after
  | later {chain node rest state shared left opened inside inner content built reports fates error
        after}
      (agree : sharing table chain node.marks = (shared, left))
      (marks : MarksReported table policy node left (placeIn target (wrappersOf shared)) state
        opened inside)
      (built_eq : reportNode table policy node inside = (.ok (inner, content), built))
      (next : NodesStopped table policy target (wrappersOf (shared ++ opened)) rest
        (built.appended (placeIn target (wrappersOf (shared ++ opened))) inner) reports fates
        error after) :
      NodesStopped table policy target chain (node :: rest) state
        (⟨shared ++ opened, inner, content⟩ :: reports) fates error after

variable {table : TemplateTable} {policy : MarkPolicy} {node : Node} {target top : η}
  {state after : Guarded σ} {error : Error}

/-- Putting results together fails only where they are missing. -/
theorem error_of_bind_pure {α β : Type} {work : Guarding σ α} {f : α → β}
    (h : (work >>= fun a => pure (f a) : Guarding σ β) state = (.error error, after)) :
    work state = (.error error, after) := by
  rcases Building.bind_eq_error.mp h with h | ⟨a, t, -, h⟩
  · exact h
  · cases h

/-- A run over marks that fails ends at one of them, after the rules for the marks before it. -/
theorem marks_of_error {marks : List Mark}
    (h : reportMarks table policy node marks top state =
      ((.error error : Except Error (List (Fate σ η))), after)) :
    ∃ tried mark others fates inside, marks = tried ++ mark :: others ∧
      MarksReported table policy node tried top state fates inside ∧
      renderMark table mark node inside =
        ((.error error : Except Error (Option (Rendered η))), after) ∧
      policy.stopsAt error = true := by
  induction marks generalizing top state with
  | nil => cases h
  | cons mark rest ih =>
    rw [reportMarks, Building.bind_apply_ok (Building.get_apply _),
      Building.bind_apply_ok (attempt_apply _ _)] at h
    by_cases hm : table.hasMark mark.typeName = true
    · rcases hw : (renderMark table mark node : Guarding σ (Option (Rendered η))) state with
        ⟨failure | _ | rendered, built⟩
      · simp only [hw] at h
        by_cases hp : policy.stopsAt failure = true
        · simp only [hp, ite_true] at h
          cases h
          exact ⟨[], mark, rest, [], state, rfl, .nil, hw, hp⟩
        · simp only [hp, Bool.false_eq_true, ite_false] at h
          rw [Building.bind_apply_ok (Building.get_apply _)] at h
          obtain ⟨tried, last, others, fates, inside, rfl, hmarks, hlast⟩ :=
            ih (error_of_bind_pure h)
          exact ⟨mark :: tried, last, others, _, inside, rfl,
            .dropped hm hw (Bool.eq_false_iff.mpr hp) hmarks, hlast⟩
      · exact absurd hw (renderMark_ne_none hm node state built)
      · simp only [hw] at h
        rw [Building.bind_apply_ok (Building.get_apply _),
          Building.bind_apply_ok (appendTo_apply _ _ _)] at h
        obtain ⟨tried, last, others, fates, inside, rfl, hmarks, hlast⟩ :=
          ih (error_of_bind_pure h)
        exact ⟨mark :: tried, last, others, _, inside, rfl, .opened hm hw hmarks, hlast⟩
    · have hm' := Bool.eq_false_iff.mpr hm
      simp only [renderMark_of_not_hasMark hm'] at h
      obtain ⟨tried, last, others, fates, inside, rfl, hmarks, hlast⟩ :=
        ih (error_of_bind_pure h)
      exact ⟨mark :: tried, last, others, _, inside, rfl, .passed hm' hmarks, hlast⟩

/-- A run over siblings that fails ends at one of them. -/
theorem nodesStopped {chain : List (Wrapper σ η)} {nodes : List Node}
    (h : reportNodes table policy target chain nodes state =
      ((.error error : Except Error (List (Report σ η))), after)) :
    ∃ reports fates,
      NodesStopped table policy target chain nodes state reports fates error after := by
  induction nodes generalizing chain state with
  | nil =>
    rw [reportNodes] at h
    cases h
  | cons node rest ih =>
    rw [reportNodes] at h
    rcases Building.bind_eq_error.mp h with hm | ⟨opened, inside, hm, h⟩
    · obtain ⟨tried, mark, others, fates, inside, hleft, hmarks, hfailed, hstops⟩ :=
        marks_of_error hm
      exact ⟨[], _, .here (.mark (Prod.ext rfl hleft) hmarks hfailed hstops)⟩
    rcases Building.bind_eq_error.mp h with hn | ⟨⟨inner, content⟩, built, hn, h⟩
    · exact ⟨[], _, .here (.inner rfl (marksReported hm) hn)⟩
    dsimp only at h
    rw [Building.bind_apply_ok (appendTo_apply _ _ _), ← placeIn_append, ← wrappersOf_append] at h
    obtain ⟨reports, fates, hstopped⟩ := ih (error_of_bind_pure h)
    exact ⟨_ :: reports, fates, .later rfl (marksReported hm) hn hstopped⟩

end

/-! ### What is built in a store -/

section

variable {table : TemplateTable} {policy : MarkPolicy} {node : Node} {state after : Guarded Dom}

/-- The template of a mark makes nodes of its own. If it succeeds, they are a tree that hangs on
nothing, and the place of the wrapper is one of them. -/
theorem grows_and_makes_of_renderMark (hw : state.tree.WellFormed) {mark : Mark}
    {result : Except Error (Option (Rendered NodeId))}
    (h : renderMark table mark node state = (result, after)) :
    Dom.Grows (fun _ => False) state.tree after.tree ∧
      ∀ rendered, result = .ok (some rendered) → ∃ outline,
        Dom.Makes state.tree after.tree
          ⟨rendered.root, some (rendered.hole.getD rendered.root)⟩ outline := by
  rcases hscript : (renderMark table mark node : Guarding Script (Option (Rendered Nat)))
    ⟨state.guard, .empty⟩ with ⟨first, final⟩
  have hf := (grows_of_renderMark hscript).orderly
  have hsame : GuardPairing.same.related state.guard state.guard := rfl
  obtain ⟨hbuilt, -, hout⟩ := embodies_of_alongside hscript hf hw hsame fun hs =>
    (embodying hf state.tree).renderMark hs table trivial trivial
  rw [h] at hbuilt hout
  refine ⟨hbuilt.grows, fun rendered hr => ?_⟩
  obtain rfl : result = .ok (some rendered) := hr
  cases hout with
  | ok hrel =>
    cases hrel with
    | some hr =>
      obtain ⟨outline, hmakes⟩ := Script.Makes.exists_outline mark (makes_of_renderMark hscript)
      exact ⟨outline, hmakes hbuilt hr⟩

/-- A node is built in nodes of its own. If it succeeds, they are a tree that hangs on nothing. -/
theorem grows_and_makes_of_reportNode (hw : state.tree.WellFormed)
    {result : Except Error (NodeId × List (Report Dom NodeId))}
    (h : reportNode table policy node state = (result, after)) :
    Dom.Grows (fun _ => False) state.tree after.tree ∧
      ∀ inner content, result = .ok (inner, content) →
        ∃ outline, Dom.Makes state.tree after.tree ⟨inner, none⟩ outline := by
  have hempty : (⟨state.guard, .empty⟩ : Guarded Script).tree.Closed := closed_empty
  have hrun : (renderNode table policy node : Guarding Dom NodeId) state =
      (result.map Prod.fst, after) := by
    rw [renderNode_eq_report, Building.map_apply, h]
  rcases hscript : (renderNode table policy node : Guarding Script Nat) ⟨state.guard, .empty⟩ with
    ⟨first, final⟩
  have hinner : InnerBuilt True policy .empty _ _ := renderNode_built table policy node hempty
  rw [hscript] at hinner
  obtain ⟨hgrows, -, hmade⟩ := hinner
  have hf := hgrows.orderly
  have hsame : GuardPairing.same.related state.guard state.guard := rfl
  obtain ⟨hbuilt, -, hout⟩ := embodies_of_alongside hscript hf hw hsame fun hs =>
    (embodying hf state.tree).renderNode table policy node (GuardPairing.maps_same node) hs
  rw [hrun] at hbuilt hout
  refine ⟨hbuilt.grows, fun inner content hr => ?_⟩
  subst hr
  cases hout with
  | ok hr =>
    obtain ⟨hpos, hroot, -⟩ := hmade _ rfl
    obtain ⟨outline, hmakes⟩ := exists_outline_of_first hf hpos hroot
    exact ⟨outline, hmakes hbuilt hr⟩

end

/-! ### The children that are added -/

/-- The wrappers of a chain are new, so what comes inside them is hung on none of the old nodes. -/
def ChainNew (start cur : Dom) (chain : List (Wrapper Dom NodeId)) : Prop :=
  ∀ w ∈ chain, start.size ≤ w.place ∧ w.place < cur.size

/-- The marks of a node have been worked on, and the target has got some children. -/
structure Appending (target : NodeId) (start cur : Dom) (kids : List NodeId)
    (fates : List (Fate Dom NodeId)) : Prop where
  gets : Dom.Gets target start cur (kids ++ (topOf none fates).toList)
  chain_new : ChainNew start cur (wrappersOf fates)

theorem ChainNew.grows {start s t : Dom} {chain : List (Wrapper Dom NodeId)}
    (h : ChainNew start s chain) (hle : s.size ≤ t.size) : ChainNew start t chain :=
  fun w hw => ⟨(h w hw).1, Nat.lt_of_lt_of_le (h w hw).2 hle⟩

namespace Appending

variable {table : TemplateTable} {policy : MarkPolicy} {node : Node} {target : NodeId}
  {start s t : Dom} {kids : List NodeId} {fates : List (Fate Dom NodeId)}

/-- Nodes of their own do not matter. -/
theorem made (h : Appending target start s kids fates) (ht : target < start.size)
    (hg : Dom.Grows (fun _ => False) s t) : Appending target start t kids fates :=
  ⟨h.gets.made ht hg, h.chain_new.grows hg.size_le⟩

/-- The place inside the wrappers of a node is the target if there are none, and new otherwise. -/
theorem place_new (h : Appending target start s kids fates) (ht : target < start.size) :
    let place := placeIn target (wrappersOf fates)
    (place = target ∨ start.size ≤ place) ∧ place < s.size ∧
      (place = target ↔ wrappersOf fates = []) := by
  intro place
  have hplace : place = placeIn target (wrappersOf fates) := rfl
  cases hc : wrappersOf fates with
  | nil =>
    rw [hc] at hplace
    have htarget : place = target := hplace
    exact ⟨Or.inl htarget, htarget ▸ Nat.lt_of_lt_of_le ht h.gets.grows.size_le,
      iff_of_true htarget rfl⟩
  | cons w ws =>
    obtain ⟨v, hv, he⟩ := placeIn_cons target w ws
    obtain ⟨hnew, hlt⟩ := h.chain_new v (hc ▸ hv)
    rw [hc, he] at hplace
    rw [← hplace] at hnew hlt
    refine ⟨Or.inr hnew, hlt, iff_of_false (fun he => ?_) (List.cons_ne_nil _ _)⟩
    exact absurd (he ▸ ht) (Nat.not_lt.mpr hnew)

/-- A new tree is hung inside the wrappers of a node. It becomes a child of the target if there are
none. -/
theorem hang (h : Appending target start s kids fates) (ht : target < start.size)
    {made : Rendered NodeId} {outline : Outline} (hm : Dom.Makes s t made outline) :
    Dom.Gets target start
      (t.append (some (placeIn target (wrappersOf fates))) (some made.root))
      (kids ++ (topOf none fates).toList ++ if wrappersOf fates = [] then [made.root] else []) := by
  obtain ⟨hp, hlt, hiff⟩ := h.place_new ht
  have hgets := h.gets.hang ht hm.grows hp hlt hm.root_new.1 hm.root_new.2 hm.detached
  rwa [if_congr hiff rfl rfl] at hgets

/-- A mark without a wrapper changes nothing. -/
theorem skip (h : Appending target start s kids fates) (fate : Fate Dom NodeId)
    (hn : wrappersOf [fate] = []) (ho : topOf none [fate] = none) :
    Appending target start s kids (fates ++ [fate]) := by
  have htop := topOf_append none fates [fate]
  rw [ho, Option.toList_none, ite_self, List.append_nil] at htop
  refine ⟨htop.symm ▸ h.gets, ?_⟩
  rw [wrappersOf_append, hn, List.append_nil]
  exact h.chain_new

/-- A wrapper is opened inside the others. -/
theorem enter (h : Appending target start s kids fates) (ht : target < start.size)
    (w : Wrapper Dom NodeId) {outline : Outline}
    (hm : Dom.Makes s t ⟨w.root, some w.place⟩ outline) :
    Appending target start (t.append (some (placeIn target (wrappersOf fates))) (some w.root)) kids
      (fates ++ [.opened w]) := by
  have hgets := h.hang ht hm
  have htop : (topOf none [Fate.opened w]).toList = [w.root] := rfl
  rw [List.append_assoc, ← htop, ← topOf_append] at hgets
  refine ⟨hgets, fun v hv => ?_⟩
  rw [wrappersOf_append] at hv
  have hsize : (t.append (some (placeIn target (wrappersOf fates))) (some w.root)).size = t.size :=
    Dom.size_append ..
  rw [hsize]
  rcases List.mem_append.mp hv with hv | hv
  · exact h.chain_new.grows hm.grows.size_le v hv
  · obtain rfl := List.mem_singleton.mp hv
    obtain ⟨hnew, hlt⟩ := hm.hole_new _ rfl
    exact ⟨Nat.le_trans h.gets.grows.size_le hnew, hlt⟩

end Appending

section

variable {table : TemplateTable} {policy : MarkPolicy} {node : Node} {target : NodeId}
  {start : Dom} {kids : List NodeId} {state after : Guarded Dom}

/-- Opening the wrappers of marks adds the outermost of them, if there was none before. -/
theorem MarksReported.appending {marks : List Mark} {top : NodeId}
    {fates sofar : List (Fate Dom NodeId)}
    (h : MarksReported table policy node marks top state fates after) (ht : target < start.size)
    (htop : placeIn target (wrappersOf sofar) = top)
    (ha : Appending target start state.tree kids sofar) :
    Appending target start after.tree kids (sofar ++ fates) := by
  induction h generalizing sofar with
  | nil => rwa [List.append_nil]
  | @passed mark rest top state fates after unknown next ih =>
    have hplace : placeIn target (wrappersOf (sofar ++ [.passed mark])) = top := by
      rwa [wrappersOf_append, wrappersOf_passed, wrappersOf_nil, List.append_nil]
    have hnext := ih hplace (ha.skip (.passed mark) rfl rfl)
    rwa [List.append_assoc] at hnext
  | @opened mark rest top state rendered built fates after known built_eq next ih =>
    obtain ⟨-, hmade⟩ := grows_and_makes_of_renderMark ha.gets.grows.after built_eq
    obtain ⟨outline, hmakes⟩ := hmade rendered rfl
    have hin := ha.enter ht ⟨mark, rendered, state, built⟩ hmakes
    rw [htop] at hin
    have hnext := ih (by rw [wrappersOf_append, placeIn_append]; rfl) hin
    rwa [List.append_assoc] at hnext
  | @dropped mark rest top state error failed fates after known failed_eq goesOn next ih =>
    obtain ⟨hgrows, -⟩ := grows_and_makes_of_renderMark ha.gets.grows.after failed_eq
    have hplace :
        placeIn target (wrappersOf (sofar ++ [.dropped mark error state failed])) = top := by
      rwa [wrappersOf_append, wrappersOf_dropped, wrappersOf_nil, List.append_nil]
    have hnext := ih hplace ((ha.made ht hgrows).skip (.dropped mark error state failed) rfl rfl)
    rwa [List.append_assoc] at hnext

/-- A node starts inside the wrappers that it shares with the nodes before it. -/
theorem appending_shared {chain : List (Wrapper Dom NodeId)} {shared : List (Fate Dom NodeId)}
    {left : List Mark} (hgets : Dom.Gets target start state.tree kids)
    (hchain : ChainNew start state.tree chain)
    (agree : sharing table chain node.marks = (shared, left)) :
    Appending target start state.tree kids shared := by
  have htop := topOf_sharing table chain node.marks
  have hkept := sharing_wrappers table chain node.marks
  rw [agree] at htop hkept
  refine ⟨?_, fun w hw => hchain w (hkept.subset hw)⟩
  rwa [htop, Option.toList_none, List.append_nil]

/-- A node that is built inside its wrappers adds one child or none. -/
theorem Appending.close {fates : List (Fate Dom NodeId)}
    (h : Appending target start state.tree kids fates) (ht : target < start.size) {inner : NodeId}
    {content : List (Report Dom NodeId)}
    (hbuilt : reportNode table policy node state = (.ok (inner, content), after)) :
    let appended := after.appended (placeIn target (wrappersOf fates)) inner
    Dom.Gets target start appended.tree
        (kids ++ (Report.top? ⟨fates, inner, content⟩).toList) ∧
      ChainNew start appended.tree (wrappersOf fates) := by
  intro appended
  obtain ⟨hgrows, hmade⟩ := grows_and_makes_of_reportNode h.gets.grows.after hbuilt
  obtain ⟨outline, hmakes⟩ := hmade inner content rfl
  have hgets := h.hang ht hmakes
  have htop := topOf_append (some inner) fates []
  rw [List.append_nil] at htop
  have hinner : (topOf (some inner) ([] : List (Fate Dom NodeId))).toList = [inner] := rfl
  rw [List.append_assoc, ← hinner, ← htop] at hgets
  refine ⟨hgets, h.chain_new.grows (Nat.le_trans hgrows.size_le (Nat.le_of_eq ?_))⟩
  exact (Dom.size_append ..).symm

/-- Siblings add their children one after another. -/
theorem NodesReported.appending {chain : List (Wrapper Dom NodeId)} {nodes : List Node}
    {reports : List (Report Dom NodeId)}
    (h : NodesReported table policy target chain nodes state reports after)
    (ht : target < start.size) (hgets : Dom.Gets target start state.tree kids)
    (hchain : ChainNew start state.tree chain) :
    Dom.Gets target start after.tree (kids ++ topsOf reports) := by
  induction h generalizing kids with
  | nil => rwa [topsOf, List.filterMap_nil, List.append_nil]
  | @cons chain node rest state shared left opened inside inner content built reports after
      agree marks built_eq next ih =>
    have hin := marks.appending ht rfl (appending_shared hgets hchain agree)
    obtain ⟨hgets', hchain'⟩ := hin.close ht built_eq
    have hnext := ih hgets' hchain'
    rw [List.append_assoc] at hnext
    rwa [topsOf_cons]

/-- A node that fails has added the wrapper that was opened for it, if there was one. -/
theorem NodeStopped.appending {chain : List (Wrapper Dom NodeId)}
    {fates : List (Fate Dom NodeId)} {error : Error}
    (h : NodeStopped table policy target chain node state fates error after)
    (ht : target < start.size) (hgets : Dom.Gets target start state.tree kids)
    (hchain : ChainNew start state.tree chain) :
    Dom.Gets target start after.tree (kids ++ (topOf none fates).toList) := by
  cases h with
  | mark agree marks failed_eq stops =>
    have hin := marks.appending ht rfl (appending_shared hgets hchain agree)
    exact hin.gets.made ht (grows_and_makes_of_renderMark hin.gets.grows.after failed_eq).1
  | inner agree marks failed_eq =>
    have hin := marks.appending ht rfl (appending_shared hgets hchain agree)
    exact hin.gets.made ht (grows_and_makes_of_reportNode hin.gets.grows.after failed_eq).1

/-- Siblings of which one fails have added the children of those before it, and perhaps one more. -/
theorem NodesStopped.appending {chain : List (Wrapper Dom NodeId)} {nodes : List Node}
    {reports : List (Report Dom NodeId)} {fates : List (Fate Dom NodeId)} {error : Error}
    (h : NodesStopped table policy target chain nodes state reports fates error after)
    (ht : target < start.size) (hgets : Dom.Gets target start state.tree kids)
    (hchain : ChainNew start state.tree chain) :
    Dom.Gets target start after.tree
      (kids ++ (topsOf reports ++ (topOf none fates).toList)) := by
  induction h generalizing kids with
  | here stopped => exact stopped.appending ht hgets hchain
  | @later chain node rest state shared left opened inside inner content built reports fates error
      after agree marks built_eq next ih =>
    have hin := marks.appending ht rfl (appending_shared hgets hchain agree)
    obtain ⟨hgets', hchain'⟩ := hin.close ht built_eq
    have hnext := ih hgets' hchain'
    rw [List.append_assoc] at hnext
    rwa [topsOf_cons, List.append_assoc]

end

/-- Building a fragment into a node of a store only appends to that node, whether it succeeds or
not. What the store held stays as it was, up to the links from the node to its first and last child
and from its last child to the next one. If the work succeeds, the new children are what its nodes
add, each its outermost wrapper or its inner rendering, unless it goes on in the wrapper of the
nodes before it. If it fails, they are what the nodes before the failure added, and the wrapper that
was already open for the node that fails. Whatever else was made is below the new children, or hangs
on nothing or below something new that does. -/
theorem serializeFragment_appends (table : TemplateTable) (policy : MarkPolicy)
    (fragment : Fragment) (state : Guarded Dom) (hw : state.tree.WellFormed) {target : NodeId}
    (ht : target < state.tree.size) :
    let run := (serializeFragment table policy fragment (some target) : Guarding Dom NodeId) state
    ∃ kids, Dom.AppendsTo target state.tree run.2.tree kids ∧
      (∀ root, run.1 = .ok root → root = target ∧ ∃ reports,
        reportFragment table policy fragment (some target) state =
            (.ok (target, reports), run.2) ∧ kids = topsOf reports) ∧
      ∀ error, run.1 = .error error → ∃ reports fates,
        NodesStopped table policy target [] fragment state reports fates error run.2 ∧
          kids = topsOf reports ++ (topOf none fates).toList := by
  intro run
  have hgets : Dom.Gets target state.tree state.tree [] := .refl target hw
  have hchain : ChainNew state.tree state.tree [] := List.forall_mem_nil _
  have hreport : reportFragment table policy fragment (some target) state =
      (reportNodes table policy target [] fragment >>= fun reports => pure (target, reports) :
        Guarding Dom (NodeId × List (Report Dom NodeId))) state := rfl
  have hrun : run = ((reportFragment table policy fragment (some target) state).1.map Prod.fst,
      (reportFragment table policy fragment (some target) state).2) := by
    rw [← Building.map_apply, ← serializeFragment_eq_report]
  rcases hn : (reportNodes table policy target [] fragment :
    Guarding Dom (List (Report Dom NodeId))) state with ⟨error | reports, after⟩
  · rw [hreport, Building.bind_apply_error hn] at hrun
    obtain ⟨reports, fates, hstopped⟩ := nodesStopped hn
    have hadded := hstopped.appending ht hgets hchain
    rw [hrun]
    refine ⟨_, hadded.appendsTo, nofun, fun error' he => ?_⟩
    cases he
    exact ⟨reports, fates, hstopped, List.nil_append _⟩
  · rw [Building.bind_apply_ok hn] at hreport
    rw [hreport] at hrun
    have hadded := (nodesReported hn).appending ht hgets hchain
    rw [hrun]
    refine ⟨_, hadded.appendsTo, fun root hr => ?_, nofun⟩
    cases hr
    exact ⟨rfl, reports, hreport, List.nil_append _⟩

/-- A document with an element that holds a text. -/
def sampleStore : Dom :=
  [.create (.element (.html "p") []), .append 0 1, .appendText 1 "old"].foldl Dom.Edit.apply .empty

/-- A text, and one whose second mark has a template that fails. -/
def sampleStopped : Fragment := [sampleText "a" [], sampleText "b" ["em", "broken"]]

set_option maxRecDepth 10000 in
/-- The template fails inside a wrapper, in an element that is not empty. The text before it and
the wrapper have become children of the element, and what the template built before it failed hangs
on nothing. -/
theorem serializeFragment_appends_sample :
    let state : Guarded Dom := ⟨.empty, sampleStore⟩
    let run := (serializeFragment sampleTable .strict sampleStopped (some 1) :
      Guarding Dom NodeId) state
    let error : Error := .malformedTemplate (.badTag "not a tag")
    sampleStore.WellFormed ∧ 1 < sampleStore.size ∧ run.1 = .error error ∧
      Dom.AppendsTo 1 sampleStore run.2.tree [3, 4] ∧
      (∃ reports fates,
        NodesStopped sampleTable .strict 1 [] sampleStopped state reports fates error run.2 ∧
          topsOf reports ++ (topOf none fates).toList = [3, 4]) ∧
      run.2.tree.children (some 5) = [6] ∧ run.2.tree.parent (some 5) = none := by
  intro state run error
  have hmade := Dom.Reachable.empty.edit (.create (.element (.html "p") [])) trivial
  have happended := hmade.edit (.append 0 1)
    ⟨by decide, by decide, Dom.not_under_of_parent_none rfl (by decide)⟩
  have hstore := happended.edit (.appendText 1 "old") (Nat.lt_succ_self 1)
  have hw : sampleStore.WellFormed := hstore.wellFormed
  have ht : 1 < sampleStore.size := by decide
  have herror : run.1 = .error error := rfl
  obtain ⟨kids, happends, -, hstopped⟩ :=
    serializeFragment_appends sampleTable .strict sampleStopped state hw ht
  have hkids : kids = [3, 4] := by
    have hold : sampleStore.children (some 1) = [2] := rfl
    have hnow : run.2.tree.children (some 1) = [2, 3, 4] := rfl
    have hadded := happends.children_eq 1 ht
    rw [if_pos rfl, hnow, hold] at hadded
    exact (List.cons.inj hadded).2.symm
  subst hkids
  obtain ⟨reports, fates, hnodes, htops⟩ := hstopped _ herror
  exact ⟨hw, ht, herror, happends, ⟨reports, fates, hnodes, htops.symm⟩, rfl, rfl⟩

end RichDoc
