import RichDoc.Proofs.Build.Renumbering
import RichDoc.Proofs.Serializer.Chains
import RichDoc.Proofs.Serializer.Lockstep
import RichDoc.Proofs.Template.Typed
import RichDoc.Proofs.Template.Visits

/-!
# What a shared wrapper is

A wrapper is built once, for the mark of the node that opens it and for whether that node stands in
a line of text. A later sibling that goes on in it has an equal mark, but its own mark and its own
flag are never shown to the template. So the wrapper is the one that the sibling would have had on
its own if the template describes the same for both, and may be another one if it does not.
-/

namespace RichDoc

open Script

/-! ### Wrappers on their own -/

/-- The typed description that the template of a mark gives. -/
def TemplateTable.wrapper? (table : TemplateTable) (mark : Mark) (isInline : Bool) : Option Spec :=
  (table.mark? mark.typeName).map fun template => (template mark isInline).typed

/-- What becomes of a mark on a node when nothing has been built yet. -/
def MadeAlone (table : TemplateTable) (mark : Mark) (node : Node) (made : Rendered Nat)
    (part : Script) : Prop :=
  ∃ guard, renderMark table mark node ⟨.empty, .empty⟩ = (.ok (some made), ⟨guard, part⟩)

/-- A wrapper is built like one on its own: the same calls, with the nodes numbered on. -/
structure Wrapper.Copies (w : Wrapper Script Nat) (made : Rendered Nat) (part : Script) : Prop where
  rendered_eq : w.rendered = made.shift w.before.tree.count
  script_eq : w.after.tree = w.before.tree.goOn part

/-- A wrapper does not depend on what was built before, nor on what the guard keeps. -/
theorem exists_madeAlone {pool : Pool} {table : TemplateTable} {mark : Mark} {node : Node}
    (hm : pool.has mark.attrs) (hn : pool.has node.attrs) {state after : Guarded Script}
    {rendered : Rendered Nat} (hg : state.guard.Faithful pool)
    (h : renderMark table mark node state = (.ok (some rendered), after)) :
    ∃ made part, MadeAlone table mark node made part ∧
      Wrapper.Copies ⟨mark, rendered, state, after⟩ made part := by
  have hstart : ((goingOn state.tree).guarded (.faithful pool)).states state ⟨.empty, .empty⟩ :=
    ⟨(goOn_empty state.tree).symm, hg, Guard.Reachable.empty.faithful⟩
  obtain ⟨result, ⟨guard, part⟩, hm, hlater, hrel⟩ :=
    ((goingOn state.tree).renderMark hstart table hm hn).ok_right h
  cases hrel with
  | some hr =>
    refine ⟨_, part, ⟨guard, hm⟩, ?_, hlater.states.1⟩
    exact congrArg₂ Rendered.mk hr.root (eq_map_of_rel hr.hole)

/-- The template of a mark that has a wrapper was rendered. -/
theorem MadeAlone.renderSpec_eq {table : TemplateTable} {mark : Mark} {node : Node}
    {made : Rendered Nat} {part : Script} (h : MadeAlone table mark node made part) :
    ∃ spec, table.wrapper? mark node.isInline = some spec ∧
      renderSpec [] spec Script.empty = (.ok made, part) := by
  obtain ⟨guard, h⟩ := h
  unfold renderMark at h
  rw [TemplateTable.wrapper?]
  cases ht : table.mark? mark.typeName with
  | none =>
    rw [ht] at h
    cases h
  | some template =>
    rw [ht] at h
    obtain ⟨wrapper, after, hr, hp⟩ := Building.bind_eq_ok.mp h
    cases hp
    rw [renderGuarded_apply] at hr
    obtain ⟨hresult, hstate⟩ := Prod.mk.inj hr
    have hspec := renderSpec_nil_of_ok (Prod.ext hresult (congrArg Guarded.tree hstate))
    have htyped := renderSpec_typed (σ := Script) _ (isTemplate_of_renderSpec _ hspec)
    exact ⟨_, rfl, (congrFun htyped _).symm.trans hspec⟩

/-- Wrappers whose templates describe the same are the same. -/
theorem MadeAlone.eq_of_wrapper? {table : TemplateTable} {mark mark' : Mark} {node node' : Node}
    {made made' : Rendered Nat} {part part' : Script} (h : MadeAlone table mark node made part)
    (h' : MadeAlone table mark' node' made' part')
    (hsame : table.wrapper? mark node.isInline = table.wrapper? mark' node'.isInline) :
    made = made' ∧ part = part' := by
  obtain ⟨spec, hspec, hrun⟩ := h.renderSpec_eq
  obtain ⟨spec', hspec', hrun'⟩ := h'.renderSpec_eq
  obtain rfl : spec = spec' := Option.some.inj (hspec.symm.trans (hsame.trans hspec'))
  obtain ⟨hmade, hpart⟩ := Prod.mk.inj (hrun.symm.trans hrun')
  exact ⟨Except.ok.inj hmade, hpart⟩

/-! ### Who opened a wrapper -/

/-- A wrapper was built for a mark of a node, as it would be on its own. -/
structure OpenedFor (table : TemplateTable) (opener : Node) (w : Wrapper Script Nat) : Prop where
  mem : w.mark ∈ opener.marks
  made : Makes w.before.tree (.ok w.rendered) w.after.tree
  alone : ∃ made part, MadeAlone table w.mark opener made part ∧ w.Copies made part

/-- The wrappers that are opened for a node are built for its marks. -/
theorem MarksReported.openedFor {pool : Pool} {table : TemplateTable} {policy : MarkPolicy}
    {node : Node} (hn : node.Maps pool.has) {marks : List Mark} {top : Nat}
    {fates : List (Fate Script Nat)} {state after : Guarded Script}
    (h : MarksReported table policy node marks top state fates after)
    (hg : state.guard.Faithful pool) (hm : ∀ mark ∈ marks, mark ∈ node.marks) :
    after.guard.Faithful pool ∧ ∀ w ∈ wrappersOf fates, OpenedFor table node w := by
  induction h with
  | nil => exact ⟨hg, List.forall_mem_nil _⟩
  | passed _ _ ih => exact ih hg (List.forall_mem_cons.mp hm).2
  | opened _ built_eq _ ih =>
    obtain ⟨hmark, hrest⟩ := List.forall_mem_cons.mp hm
    have hmap := hn.marks hmark
    have hbuilt := Guarding.StaysFaithful.of_run (.renderMark _ hmap hn.attrs) hg built_eq
    obtain ⟨hafter, hall⟩ := ih hbuilt hrest
    have hopened := exists_madeAlone hmap hn.attrs hg built_eq
    exact ⟨hafter,
      List.forall_mem_cons.mpr ⟨⟨hmark, makes_of_renderMark built_eq, hopened⟩, hall⟩⟩
  | dropped _ failed_eq _ _ ih =>
    obtain ⟨hmark, hrest⟩ := List.forall_mem_cons.mp hm
    have hfailed :=
      Guarding.StaysFaithful.of_run (.renderMark _ (hn.marks hmark) hn.attrs) hg failed_eq
    exact ih hfailed hrest

/-- The wrappers around a node are built for its marks and for marks of earlier siblings. -/
theorem NodesReported.openedFor {pool : Pool} {table : TemplateTable} {policy : MarkPolicy}
    {target : Nat} {chain : List (Wrapper Script Nat)} {nodes : List Node}
    {state after : Guarded Script} {reports : List (Report Script Nat)}
    (h : NodesReported table policy target chain nodes state reports after)
    (hm : ∀ node ∈ nodes, node.Maps pool.has) (hg : state.guard.Faithful pool) (past : List Node)
    (hc : ∀ w ∈ chain, ∃ opener ∈ past, OpenedFor table opener w) {i : Nat}
    {report : Report Script Nat} (hr : reports[i]? = some report) :
    ∀ w ∈ report.chain, ∃ opener ∈ past ++ nodes.take (i + 1), OpenedFor table opener w := by
  induction h generalizing past i with
  | nil => cases hr
  | @cons chain node rest state shared left opened inside inner content built reports after
      agree marks built_eq next ih =>
    have hpre := sharing_wrappers table chain node.marks
    have hshare := (sharing_sound table node chain node.marks).1
    rw [agree] at hpre hshare
    obtain ⟨hnode, hrest⟩ := List.forall_mem_cons.mp hm
    obtain ⟨hinside, hopened⟩ := marks.openedFor hnode hg fun mark hmem =>
      hshare ▸ List.mem_append_right _ hmem
    have hall : ∀ w ∈ wrappersOf (shared ++ opened),
        ∃ opener ∈ past ++ [node], OpenedFor table opener w := by
      intro w hw
      rw [wrappersOf_append] at hw
      rcases List.mem_append.mp hw with hw | hw
      · obtain ⟨opener, hmem, ho⟩ := hc w (hpre.subset hw)
        exact ⟨opener, List.mem_append_left _ hmem, ho⟩
      · exact ⟨node, List.mem_append_right _ (List.mem_singleton.mpr rfl), hopened w hw⟩
    cases i with
    | zero =>
      obtain rfl := Option.some.inj hr
      exact hall
    | succ i =>
      have hbuilt := Guarding.StaysFaithful.of_run (.reportNode _ _ hnode) hinside built_eq
      have hlater := ih hrest hbuilt (past ++ [node]) hall hr
      rwa [List.append_assoc, List.singleton_append] at hlater

/-! ### What is hung on a wrapper -/

/-- Once a wrapper hangs on an older node, what comes next is hung inside it or further in. -/
theorem MarksReported.hung_inside {table : TemplateTable} {policy : MarkPolicy} {node : Node}
    {marks : List Mark} {top : Nat} {fates : List (Fate Script Nat)}
    {state after : Guarded Script}
    (h : MarksReported table policy node marks top state fates after) (hc : state.tree.Closed)
    (ht : top ≤ state.tree.count) :
    ∀ w ∈ wrappersOf fates, state.tree.count ≤ w.before.tree.count ∧
      ∃ parent ≤ w.before.tree.count, Grows (fun x => ∃ v ∈ wrappersOf fates, x = v.place)
        (w.after.appended parent w.root).tree after.tree := by
  induction h with
  | nil => exact List.forall_mem_nil _
  | passed _ _ ih => exact ih hc ht
  | @opened mark rest top state rendered built fates after known built_eq next ih =>
    have hm := makes_of_renderMark built_eq
    obtain ⟨hang, -⟩ := hm.hang ht
    have hclosed := hang.closed hc
    have hplace := (hm.place mark).2.2
    obtain ⟨hg, -, -⟩ := next.grows hclosed hplace
    rw [wrappersOf_opened]
    refine List.forall_mem_cons.mpr ⟨⟨Nat.le_refl _, top, ht, hg.mono fun x hx => ?_⟩,
      fun w hw => ?_⟩
    · exact ⟨_, List.mem_cons_self .., hx⟩
    · obtain ⟨hle, parent, hp, hg'⟩ := ih hclosed hplace w hw
      exact ⟨Nat.le_trans hang.1 hle, parent, hp,
        hg'.mono fun x ⟨v, hv, hx⟩ => ⟨v, List.mem_cons_of_mem _ hv, hx⟩⟩
  | dropped _ failed_eq _ _ ih =>
    have hf := grows_of_renderMark failed_eq
    intro w hw
    obtain ⟨hle, hin⟩ := ih (hf.closed hc) (Nat.le_trans ht hf.1) w hw
    exact ⟨Nat.le_trans hf.1 hle, hin⟩

/-- After a wrapper has been opened for a node, what is hung on nodes that are there is hung on the
places of the wrappers of this node. -/
theorem NodesReported.hung_inside {table : TemplateTable} {policy : MarkPolicy} {target : Nat}
    {chain : List (Wrapper Script Nat)} {nodes : List Node} {state after : Guarded Script}
    {reports : List (Report Script Nat)}
    (h : NodesReported table policy target chain nodes state reports after) {base : Nat}
    {placed : List Nat} (hs : Standing base target state.tree chain placed) :
    ∀ report ∈ reports, ∀ w, .opened w ∈ report.fates → target ≤ w.before.tree.count ∧
      ∃ parent ≤ w.before.tree.count,
        Grows (OnChain target report.chain) (w.after.appended parent w.root).tree after.tree := by
  induction h generalizing placed with
  | nil => exact List.forall_mem_nil _
  | @cons chain node rest state shared left opened inside inner content built reports after
      agree marks built_eq next ih =>
    have hpre := sharing_wrappers table chain node.marks
    rw [agree] at hpre
    have hkept := hs.leave hpre
    have hin := marks.standing rfl hkept
    rw [← wrappersOf_append] at hin
    obtain ⟨hg, hlt, hinner, -⟩ := innerMade table policy node built_eq hin.closed
    obtain ⟨hout, -, -⟩ := hin.place hg hlt hinner
    obtain ⟨hrest, -⟩ := next.grows (fun node _ => innerMade table policy node) hout.closed
      fun x hx => hout.onChain_le hx
    have hhang := hg.hang hlt (hin.places _ (List.prefix_refl _))
      (onChain_placeIn target (wrappersOf (shared ++ opened)))
    rw [← hinner] at hhang
    refine List.forall_mem_cons.mpr ⟨fun w hw => ?_, ih hout⟩
    have hopened : w ∈ wrappersOf opened :=
      List.mem_filterMap.mpr ⟨_, mem_opened_of_agree agree hw, rfl⟩
    obtain ⟨hle, parent, hp, hmarks⟩ :=
      marks.hung_inside hkept.closed (hkept.places _ (List.prefix_refl _)) w hopened
    have htarget := Nat.le_trans (hkept.places [] List.nil_prefix) hle
    have hinside : Grows (OnChain target (wrappersOf (shared ++ opened)))
        (w.after.appended parent w.root).tree inside.tree := by
      refine hmarks.mono ?_
      rintro x ⟨v, hv, hx⟩
      rw [wrappersOf_append]
      exact Or.inr ⟨v, List.mem_append_right _ hv, hx⟩
    exact ⟨htarget, parent, hp, (hinside.trans hhang fun _ hx => Or.inl hx).trans hrest
      fun _ hx => Or.inl hx⟩

/-- On the nodes of a wrapper hangs what its template put there, and what is in its place. -/
theorem undisturbed {target parent : Nat} {script : Script}
    {chain : List (Wrapper Script Nat)} (hordered : chain.Pairwise Wrapper.Before)
    (hmade : ∀ v ∈ chain, Makes v.before.tree (.ok v.rendered) v.after.tree)
    {w : Wrapper Script Nat} (hw : w ∈ chain) (ht : target ≤ w.before.tree.count)
    (hp : parent ≤ w.before.tree.count)
    (hg : Grows (OnChain target chain) (w.after.appended parent w.root).tree script) :
    ∀ e ∈ script.edges, w.Made e.1 → e ∈ w.after.tree.edges ∨ e.1 = w.place := by
  intro e he hmw
  have hold : ∀ x, w.Made x → x ≤ w.before.tree.count → False := fun x hx hle =>
    absurd hx.1 (Nat.not_lt.mpr hle)
  obtain ⟨-, added, hedges, -, hadded⟩ := hg
  rw [hedges, Guarded.appended, edges_appendChild] at he
  rcases List.mem_append.mp he with he | he
  · rcases List.mem_append.mp he with he | he
    · exact Or.inl he
    · obtain rfl := List.mem_singleton.mp he
      exact (hold _ hmw hp).elim
  · rcases (hadded e he).1 with hnew | hout
    · exact absurd hmw.2 (Nat.not_le.mpr hnew)
    · rcases hout with hout | ⟨v, hv, hout⟩
      · exact (hold _ (hout ▸ hmw) ht).elim
      · obtain ⟨-, hlt, hle⟩ := (hmade v hv).place v.mark
        have hmv : v.Made e.1 := hout ▸ ⟨hlt, hle⟩
        obtain rfl := Wrapper.eq_of_made hordered hw hv hmw hmv
        exact Or.inr hout

/-! ### Level by level -/

/-- Without losses, the wrappers of a node are those of its marks that have a template, in order. -/
theorem forall₂_wrappersOf {σ η : Type} [TreeBuilder σ η] {table : TemplateTable} {node : Node}
    {p : Mark → Wrapper σ η → Prop} {fates : List (Fate σ η)}
    (hs : ∀ fate ∈ fates, fate.Sound table node) (hl : fates.filterMap Fate.loss? = [])
    (hp : ∀ fate ∈ fates, ∀ w ∈ fate.wrapper?, p fate.mark w) :
    List.Forall₂ p ((fates.map Fate.mark).filter fun mark => table.hasMark mark.typeName)
      (wrappersOf fates) := by
  induction fates with
  | nil => exact .nil
  | cons fate fates ih =>
    obtain ⟨hsound, hs'⟩ := List.forall_mem_cons.mp hs
    obtain ⟨hwrap, hp'⟩ := List.forall_mem_cons.mp hp
    cases fate with
    | passed mark =>
      have hmark : ¬table.hasMark mark.typeName = true := Bool.eq_false_iff.mp hsound
      rw [List.map_cons, List.filter_cons_of_neg (by exact hmark)]
      exact ih hs' hl hp'
    | shared mark w =>
      have hmark : table.hasMark mark.typeName = true := hsound.1
      rw [List.map_cons, List.filter_cons_of_pos (by exact hmark)]
      exact .cons (hwrap w rfl) (ih hs' hl hp')
    | opened w =>
      have hmark : table.hasMark w.mark.typeName = true := hsound.1
      rw [List.map_cons, List.filter_cons_of_pos (by exact hmark)]
      exact .cons (hwrap w rfl) (ih hs' hl hp')
    | dropped mark error before after => cases hl

/-- What a wrapper around a node is at the level of a mark of that node. -/
structure Serves (table : TemplateTable) (script : Script) (opener node : Node) (mark : Mark)
    (w : Wrapper Script Nat) : Prop where
  /-- It was opened for a mark that is equal to the one of the node. -/
  mem : w.mark ∈ opener.marks
  equal : w.mark = mark ∨ mark.same w.mark = true
  /-- It is the wrapper that its opener has on its own. If the template describes the same for the
  node, it is also the one that the node has on its own. -/
  alone : ∃ made part, MadeAlone table w.mark opener made part ∧ w.Copies made part ∧
    ∀ own ownPart, MadeAlone table mark node own ownPart →
      table.wrapper? mark node.isInline = table.wrapper? w.mark opener.isInline →
      own = made ∧ ownPart = part
  /-- All that is hung on it afterwards is hung on its place. -/
  undisturbed : ∀ e ∈ script.edges, w.Made e.1 → e ∈ w.after.tree.edges ∨ e.1 = w.place

/-- Every wrapper around a node was opened for it or for an earlier sibling. -/
theorem NodesReported.exists_opened {σ η : Type} [TreeBuilder σ η] {table : TemplateTable}
    {policy : MarkPolicy} {target : η} {nodes : List Node} {state after : Guarded σ}
    {reports : List (Report σ η)}
    (h : NodesReported table policy target [] nodes state reports after) {report : Report σ η}
    (hr : report ∈ reports) {w : Wrapper σ η} (hw : w ∈ report.chain) :
    ∃ other ∈ reports, .opened w ∈ other.fates := by
  obtain ⟨fate, hf, hwrap⟩ := List.mem_filterMap.mp hw
  cases fate with
  | shared mark v =>
    obtain rfl := Option.some.inj hwrap
    obtain ⟨first, last, rfl⟩ := List.append_of_mem hr
    obtain ⟨other, ho, hopen⟩ := h.shared_opened [] (List.forall_mem_nil _) rfl hf
    exact ⟨other, List.mem_append_left _ ho, hopen⟩
  | opened v =>
    obtain rfl := Option.some.inj hwrap
    exact ⟨report, hr, hf⟩
  | passed | dropped => cases hwrap

/-- The wrappers around each of some siblings, level by level. -/
theorem NodesReported.serves {pool : Pool} {table : TemplateTable} {policy : MarkPolicy}
    {base target : Nat} {nodes : List Node} {state after : Guarded Script}
    {reports : List (Report Script Nat)}
    (h : NodesReported table policy target [] nodes state reports after)
    (hm : ∀ node ∈ nodes, node.Maps pool.has) (hg : state.guard.Faithful pool)
    (hs : Standing base target state.tree [] []) (hl : ∀ report ∈ reports, report.losses = [])
    {i : Nat} {node : Node} {report : Report Script Nat} (hi : nodes[i]? = some node)
    (hr : reports[i]? = some report) :
    List.Forall₂
      (fun mark w => ∃ opener ∈ nodes.take (i + 1), Serves table after.tree opener node mark w)
      (node.marks.filter fun mark => table.hasMark mark.typeName) report.chain := by
  obtain ⟨hall, -, -⟩ := h.placed hs
  have hplaced : ∀ {j : Nat} {other : Node} {told : Report Script Nat}, nodes[j]? = some other →
      reports[j]? = some told → Placed table after.tree base target other told := by
    intro j other told hj ht
    obtain ⟨hlt, rfl⟩ := List.getElem?_eq_some_iff.mp hj
    obtain ⟨hlt', rfl⟩ := List.getElem?_eq_some_iff.mp ht
    exact hall.get hlt hlt'
  have hmem := List.mem_of_getElem? hr
  have hnode := hplaced hi hr
  rw [← hnode.marks]
  refine forall₂_wrappersOf hnode.sound (hl report hmem) fun fate hfate w hw => ?_
  have hchain : w ∈ report.chain := List.mem_filterMap.mpr ⟨fate, hfate, hw⟩
  obtain ⟨opener, hopener, hmark, -, made, part, hmade, hcopies⟩ :=
    h.openedFor hm hg [] (List.forall_mem_nil _) hr w hchain
  refine ⟨opener, hopener, hmark, ?_, ⟨made, part, hmade, hcopies, fun own ownPart hown hsame =>
    hown.eq_of_wrapper? hmade hsame⟩, ?_⟩
  · have hsound := hnode.sound fate hfate
    cases fate with
    | shared mark v =>
      obtain rfl := Option.some.inj hw
      exact Or.inr hsound.2
    | opened v =>
      obtain rfl := Option.some.inj hw
      exact Or.inl rfl
    | passed | dropped => cases hw
  · obtain ⟨other, hother, hopen⟩ := h.exists_opened hmem hchain
    obtain ⟨j, hj⟩ := List.mem_iff_getElem?.mp hother
    have hlt : j < nodes.length := by
      rw [hall.length_eq]
      exact (List.getElem?_eq_some_iff.mp hj).1
    obtain ⟨htarget, parent, hparent, hgrow⟩ := h.hung_inside hs other hother w hopen
    refine undisturbed (hplaced (List.getElem?_eq_getElem hlt) hj).ordered (fun v hv => ?_)
      (List.mem_filterMap.mpr ⟨_, hopen, rfl⟩) htarget hparent hgrow
    obtain ⟨_, -, hopened⟩ := h.openedFor hm hg [] (List.forall_mem_nil _) hj v hv
    exact hopened.made

/-- If no template of a mark fails on the nodes of a fragment whose maps were made, the wrappers
around each node are, level by level, those of its marks that have a template. Each was built for an
equal mark of this node or of an earlier one, as it would be built for that node on its own. -/
theorem serializeFragment_serves {pool : Pool} {table : TemplateTable} {policy : MarkPolicy}
    {fragment : Fragment} (hm : ∀ node ∈ fragment, node.Maps pool.has) {target : Option Nat}
    {state after : Guarded Script} {root : Nat} (hg : state.guard.Reachable pool)
    (hc : state.tree.Closed) (ht : ∀ node ∈ target, node ≤ state.tree.count)
    (h : serializeFragment table policy fragment target state = (.ok root, after)) :
    ∃ reports, reportFragment table policy fragment target state = (.ok (root, reports), after) ∧
      List.Forall₂ (Placed table after.tree (max root state.tree.count) root) fragment reports ∧
      ((∀ report ∈ reports, report.losses = []) →
        ∀ i node report, fragment[i]? = some node → reports[i]? = some report →
          List.Forall₂
            (fun mark w => ∃ opener ∈ fragment.take (i + 1),
              Serves table after.tree opener node mark w)
            (node.marks.filter fun mark => table.hasMark mark.typeName) report.chain) := by
  obtain ⟨reports, hr⟩ := exists_report h
  obtain ⟨container, start, hstart, hrest⟩ := Building.bind_eq_ok.mp hr
  obtain ⟨others, t, hn, hp⟩ := Building.bind_eq_ok.mp hrest
  cases hp
  have hn := nodesReported hn
  obtain ⟨hgrows, hle, hmax, -⟩ := containerOf_grows hstart ht
  have hstanding : Standing (max root state.tree.count) root start.tree [] [] :=
    .start (hgrows.closed hc) (Nat.le_of_eq hmax) hle
  have hguard : start.guard.Faithful pool := by
    have hfaithful := hg.faithful
    cases target <;> cases hstart <;> exact hfaithful
  exact ⟨reports, hr, (hn.placed hstanding).1, fun hloss i node report hi hreport =>
    hn.serves hm hguard hstanding hloss hi hreport⟩

set_option maxRecDepth 10000 in
/-- Texts in a new container, of which the second goes on in the wrapper of the first. -/
theorem serializeFragment_serves_sample :
    ∃ (reports : List (Report Script Nat)) (after : Guarded Script),
      serializeFragment sampleTable .strict sampleFragment none ⟨.empty, .empty⟩ =
        (.ok 1, after) ∧
      reports.map (fun report => report.chain.length) = [1, 2, 1, 0] ∧
      ∀ report, reports[1]? = some report →
        List.Forall₂
          (fun mark w => ∃ opener ∈ sampleFragment.take 2,
            Serves sampleTable after.tree opener
              (sampleText "b" ["em", "unknown", "strong"]) mark w)
          [sampleMark "em", sampleMark "strong"] report.chain := by
  have h : (serializeFragment sampleTable .strict sampleFragment none : Guarding Script Nat)
      ⟨.empty, .empty⟩ = (.ok 1, (serializeFragment sampleTable .strict sampleFragment none
        ⟨.empty, .empty⟩).2) := Prod.ext rfl rfl
  have hmaps : ∀ node ∈ sampleFragment, node.Maps Pool.blank.has := by
    simp only [sampleFragment, List.forall_mem_cons, maps_sampleText, true_and]
    exact List.forall_mem_nil _
  obtain ⟨reports, hr, -, hserves⟩ :=
    serializeFragment_serves hmaps .empty closed_empty (fun _ hn => by cases hn) h
  have hl : ((reportFragment sampleTable .strict sampleFragment none
      (⟨.empty, .empty⟩ : Guarded Script)).1.toOption.map fun result =>
        result.2.map fun report => (report.chain.length, report.losses.length)) =
      some [(1, 0), (2, 0), (1, 0), (0, 0)] := rfl
  rw [hr] at hl
  have hlengths := Option.some.inj hl
  refine ⟨reports, _, h, ?_, fun report hreport => hserves ?_ 1 _ report rfl hreport⟩
  · have hfirst := congrArg (List.map Prod.fst) hlengths
    rwa [List.map_map] at hfirst
  · intro other hother
    have hsecond := congrArg (List.map Prod.snd) hlengths
    rw [List.map_map] at hsecond
    have hzero := List.mem_map_of_mem (f := Prod.snd ∘ fun report : Report Script Nat =>
      (report.chain.length, report.losses.length)) hother
    rw [hsecond] at hzero
    exact List.eq_nil_of_length_eq_zero (by simpa using hzero)

/-- A mark whose wrapper depends on whether the node stands in a line of text. -/
def sampleFlagTable : TemplateTable where
  nodes := [(textTypeName, textTemplate), ("para", fun _ => .wrap "p")]
  marks := [("note", fun _ isInline => .wrap (if isInline then "span" else "div"))]

/-- A block with marks. -/
def sampleBlock (marks : List String) : Node :=
  ⟨⟨"para", some "inline*", none, false, []⟩, ⟨2, []⟩, [], marks.map sampleMark, none⟩

set_option maxRecDepth 10000 in
/-- A text and a block with equal marks share the wrapper that was built for the text, though the
block has another one on its own. -/
theorem shared_wrapper_of_text :
    ∃ (reports : List (Report Script Nat)) (after : Guarded Script) (w : Wrapper Script Nat),
      reportFragment sampleFlagTable .strict [sampleText "a" ["note"], sampleBlock ["note"]] none
          ⟨.empty, .empty⟩ = (.ok (1, reports), after) ∧
        (∀ report ∈ reports, report.losses = []) ∧ reports.map Report.chain = [[w], [w]] ∧
        w.Copies ⟨1, some 1⟩ ⟨1, #[.element 1 "span"]⟩ ∧
        MadeAlone sampleFlagTable (sampleMark "note") (sampleBlock ["note"]) ⟨1, some 1⟩
          ⟨1, #[.element 1 "div"]⟩ ∧
        ¬w.Copies ⟨1, some 1⟩ ⟨1, #[.element 1 "div"]⟩ := by
  refine ⟨_, _, _, rfl, ?_, rfl, ⟨rfl, ?_⟩, ⟨_, rfl⟩, fun h => ?_⟩
  · exact List.forall_mem_cons.mpr ⟨rfl, List.forall_mem_cons.mpr ⟨rfl, List.forall_mem_nil _⟩⟩
  · refine congrArg₂ Script.mk rfl ?_
    simp only [List.map_toArray, List.map_cons, List.map_nil, Call.shift, Array.append_singleton]
    rfl
  · have hcalls := congrArg Script.calls h.script_eq
    simp only [goOn, List.map_toArray, List.map_cons, List.map_nil, Call.shift,
      Array.append_singleton] at hcalls
    exact absurd hcalls (by decide)

end RichDoc
