import RichDoc.Proofs.Doc.Equality
import RichDoc.Proofs.Serializer.Chains
import RichDoc.Proofs.Serializer.Policies

/-!
# Neighbours with equal marks

The marks of a node are compared with the wrappers that are open, not with the marks of the node
before. If every mark of that node that has a template has its wrapper, this makes no difference: a
neighbour with equal marks goes on in the same wrappers, and no other one is opened in between. A
mark whose template failed has no wrapper, so the comparison ends there, and the wrappers further in
are closed and opened again. So a failure does no harm only behind all wrappers, and only if the
template fails on the neighbour too.
-/

namespace RichDoc

variable {σ η : Type}

/-! ### Agreeing with the wrappers of a neighbour -/

/-- Wrappers that are shared are those of spanning marks. -/
theorem isSpanning_of_mem_sharing {table : TemplateTable} {chain : List (Wrapper σ η)}
    {marks : List Mark} {mark : Mark} {w : Wrapper σ η}
    (h : .shared mark w ∈ (sharing table chain marks).1) : w.mark.isSpanning = true := by
  induction marks generalizing chain with
  | nil =>
    rw [sharing] at h
    cases h
  | cons other marks ih =>
    cases chain with
    | nil => cases h
    | cons v ws =>
      rw [sharing] at h
      split at h
      · split at h
        · rename_i hs
          rcases List.mem_cons.mp h with he | h
          · obtain ⟨-, rfl⟩ := Fate.shared.inj he
            exact (Bool.and_eq_true_iff.mp hs).2
          · exact ih h
        · cases h
      · rcases List.mem_cons.mp h with he | h
        · cases he
        · exact ih h

/-- A mark agrees with what became of a mark of the node before. -/
inductive Continues (table : TemplateTable) (mark : Mark) : Fate σ η → Prop where
  | passed {other} : table.hasMark mark.typeName = false → Continues table mark (.passed other)
  | wrapper {fate} (w : Wrapper σ η) : fate.wrapper? = some w →
      table.hasMark mark.typeName = true → mark.same w.mark = true → w.mark.isSpanning = true →
      Continues table mark fate

/-- The template of the mark failed. -/
def Fate.IsLost (fate : Fate σ η) : Prop := fate.loss?.isSome = true

/-- A mark agrees with what became of a mark of the node before, or the template of that one
failed. -/
inductive Follows (table : TemplateTable) (mark : Mark) : Fate σ η → Prop where
  | continues {fate} : Continues table mark fate → Follows table mark fate
  | lost {fate : Fate σ η} : fate.IsLost → table.hasMark mark.typeName = true →
      Follows table mark fate

/-- If none of the marks of the node before was lost, all that follow agree. -/
theorem forall₂_continues {table : TemplateTable} {marks : List Mark} {fates : List (Fate σ η)}
    (h : List.Forall₂ (Follows table) marks fates) (hl : fates.filterMap Fate.loss? = []) :
    List.Forall₂ (Continues table) marks fates := by
  induction h with
  | nil => exact .nil
  | @cons mark fate marks fates hfirst hrest ih =>
    have hnone := List.filterMap_eq_nil_iff.mp hl
    obtain ⟨hfate, hothers⟩ := List.forall_mem_cons.mp hnone
    have hih := ih (List.filterMap_eq_nil_iff.mpr hothers)
    cases hfirst with
    | continues hc => exact .cons hc hih
    | lost hlost _ =>
      rw [Fate.IsLost, hfate] at hlost
      cases hlost

/-- Without open wrappers nothing is shared. -/
theorem sharing_nil (table : TemplateTable) (marks : List Mark) :
    sharing table ([] : List (Wrapper σ η)) marks = ([], marks) := by
  cases marks <;> rfl

/-- Marks that agree with those of the node before agree with all of its wrappers, and all that is
left of them has no template. -/
theorem sharing_of_continues {table : TemplateTable} {marks : List Mark}
    {fates : List (Fate σ η)} (h : List.Forall₂ (Continues table) marks fates) :
    wrappersOf (sharing table (wrappersOf fates) marks).1 = wrappersOf fates ∧
      ∀ mark ∈ (sharing table (wrappersOf fates) marks).2, table.hasMark mark.typeName = false := by
  induction h with
  | nil =>
    rw [sharing]
    exact ⟨rfl, List.forall_mem_nil _⟩
  | @cons mark fate marks fates hfirst hrest ih =>
    cases hfirst with
    | @passed other hmark =>
      rw [wrappersOf_passed]
      cases hws : wrappersOf fates with
      | nil =>
        rw [hws, sharing_nil] at ih
        rw [sharing_nil]
        exact ⟨rfl, List.forall_mem_cons.mpr ⟨hmark, ih.2⟩⟩
      | cons w ws =>
        rw [hws] at ih
        rw [sharing, if_neg (Bool.eq_false_iff.mp hmark)]
        exact ih
    | wrapper w hw hmark hsame hspanning =>
      have hchain : wrappersOf (fate :: fates) = w :: wrappersOf fates :=
        List.filterMap_cons_some hw
      rw [hchain, sharing, if_pos hmark, hsame, hspanning, Bool.and_self, if_pos rfl]
      exact ⟨congrArg (w :: ·) ih.1, ih.2⟩

variable [TreeBuilder σ η]

/-- Marks without templates are passed, and nothing is built for them. -/
theorem MarksReported.of_unknown {table : TemplateTable} {policy : MarkPolicy} {node : Node}
    {marks : List Mark} {top : η} {fates : List (Fate σ η)} {state after : Guarded σ}
    (h : MarksReported table policy node marks top state fates after)
    (hm : ∀ mark ∈ marks, table.hasMark mark.typeName = false) :
    after = state ∧ wrappersOf fates = [] := by
  induction h with
  | nil => exact ⟨rfl, rfl⟩
  | passed _ _ ih => exact ih (List.forall_mem_cons.mp hm).2
  | opened known _ _ _ =>
    rw [(List.forall_mem_cons.mp hm).1] at known
    cases known
  | dropped known _ _ _ _ =>
    rw [(List.forall_mem_cons.mp hm).1] at known
    cases known

/-- A wrapper of a node was opened for one of its marks, or was open before for a spanning one. -/
theorem MarksReported.wrapper_cases {table : TemplateTable} {policy : MarkPolicy} {node : Node}
    {chain : List (Wrapper σ η)} {left : List Mark} {shared opened : List (Fate σ η)} {top : η}
    {state after : Guarded σ}
    (h : MarksReported table policy node left top state opened after)
    (agree : sharing table chain node.marks = (shared, left)) {fate : Fate σ η}
    (hf : fate ∈ shared ++ opened) {w : Wrapper σ η} (hw : w ∈ fate.wrapper?) :
    w.mark ∈ node.marks ∨ w ∈ chain ∧ w.mark.isSpanning = true := by
  cases fate with
  | shared mark v =>
    obtain rfl := Option.some.inj hw
    rcases List.mem_append.mp hf with hf | hf
    · have hpre := sharing_wrappers table chain node.marks
      rw [agree] at hpre
      refine Or.inr ⟨hpre.subset (List.mem_filterMap.mpr ⟨_, hf, rfl⟩), ?_⟩
      exact isSpanning_of_mem_sharing (by rw [agree]; exact hf)
    · exact absurd hf (h.not_shared mark v)
  | opened v =>
    obtain rfl := Option.some.inj hw
    exact Or.inl ((h.sound_of_agree agree).1 ▸ List.mem_map_of_mem hf)
  | passed | dropped => cases hw

/-! ### What siblings keep -/

/-- Progress is made while the marks of a node are opened. -/
theorem MarksReported.keeps {R : σ → σ → Prop} (hR : Progress R) {table : TemplateTable}
    {policy : MarkPolicy} {node : Node} {marks : List Mark} {top : η} {fates : List (Fate σ η)}
    {state after : Guarded σ} (h : MarksReported table policy node marks top state fates after) :
    R state.tree after.tree := by
  induction h with
  | nil => exact hR.refl _
  | passed _ _ ih => exact ih
  | opened _ built_eq _ ih =>
    have hbuilt := (Guarding.Keeps.renderMark hR table _ node).of_run built_eq
    exact hR.trans hbuilt (hR.trans (hR.appendChild _ _ _) ih)
  | dropped _ failed_eq _ _ ih =>
    have hfailed := (Guarding.Keeps.renderMark hR table _ node).of_run failed_eq
    exact hR.trans hfailed ih

/-- Progress is made while nodes are serialized. -/
theorem NodesReported.keeps {R : σ → σ → Prop} (hR : Progress R) {table : TemplateTable}
    {policy : MarkPolicy} {target : η} {chain : List (Wrapper σ η)} {nodes : List Node}
    {state after : Guarded σ} {reports : List (Report σ η)}
    (h : NodesReported table policy target chain nodes state reports after) :
    R state.tree after.tree := by
  induction h with
  | nil => exact hR.refl _
  | cons agree marks built_eq next ih =>
    have hbuilt := (Guarding.Keeps.reportNode hR table policy _).of_run built_eq
    exact hR.trans (marks.keeps hR) (hR.trans hbuilt (hR.trans (hR.appendChild _ _ _) ih))

/-- There is one report for each node. -/
theorem NodesReported.length_eq {table : TemplateTable} {policy : MarkPolicy} {target : η}
    {chain : List (Wrapper σ η)} {nodes : List Node} {state after : Guarded σ}
    {reports : List (Report σ η)}
    (h : NodesReported table policy target chain nodes state reports after) :
    reports.length = nodes.length := by
  induction h with
  | nil => rfl
  | cons _ _ _ _ ih => exact congrArg (· + 1) ih

/-! ### Neighbours -/

/-- The marks of a neighbour follow what became of equal marks. -/
theorem forall₂_follows {pool : Pool} {table : TemplateTable} {node : Node} {marks : List Mark}
    {fates : List (Fate σ η)} (hs : ∀ fate ∈ fates, fate.Sound table node)
    (hw : ∀ fate ∈ fates, ∀ w ∈ fate.wrapper?,
      pool.has w.mark.attrs ∧ w.mark.isSpanning = true)
    (hm : ∀ mark ∈ marks, pool.has mark.attrs) (hf : ∀ fate ∈ fates, pool.has fate.mark.attrs)
    (h : List.Forall₂ (fun mark fate => mark.same (Fate.mark fate) = true) marks fates) :
    List.Forall₂ (Follows table) marks fates := by
  induction h with
  | nil => exact .nil
  | @cons mark fate marks fates hsame hrest ih =>
    obtain ⟨hsound, hs'⟩ := List.forall_mem_cons.mp hs
    obtain ⟨hwrap, hw'⟩ := List.forall_mem_cons.mp hw
    obtain ⟨hmark, hm'⟩ := List.forall_mem_cons.mp hm
    obtain ⟨hfate, hf'⟩ := List.forall_mem_cons.mp hf
    have htype : mark.typeName = fate.mark.typeName :=
      eq_of_beq (Bool.and_eq_true_iff.mp hsame).1
    refine .cons ?_ (ih hs' hw' hm' hf')
    cases fate with
    | passed other =>
      refine .continues (.passed ?_)
      rw [htype]
      exact hsound
    | shared other w =>
      obtain ⟨hwmark, hspanning⟩ := hwrap w rfl
      refine .continues (.wrapper w rfl ?_ ?_ hspanning)
      · rw [htype]
        exact hsound.1
      · exact Mark.same_trans hmark hfate hwmark hsame hsound.2
    | opened w =>
      refine .continues (.wrapper w rfl ?_ hsame (hwrap w rfl).2)
      rw [htype]
      exact hsound.1
    | dropped other error before after =>
      refine .lost rfl ?_
      rw [htype]
      exact hsound.1

/-- Under the strict policy no mark of a reported node is lost. -/
theorem MarksReported.lossless {table : TemplateTable} {policy : MarkPolicy} {node : Node}
    {marks : List Mark} {top : η} {fates : List (Fate σ η)} {state after : Guarded σ}
    (h : MarksReported table policy node marks top state fates after) (hp : policy = .strict) :
    fates.filterMap Fate.loss? = [] := by
  subst hp
  induction h with
  | nil => rfl
  | passed _ _ ih => exact ih
  | opened _ _ _ ih => exact ih
  | dropped _ failed_eq goesOn _ _ =>
    have hstops : MarkPolicy.strict.stopsAt _ = true := isTemplateError_of_renderMark failed_eq
    rw [hstops] at goesOn
    cases goesOn

/-! ### Losses that do no harm -/

/-- What became of marks that were compared with open wrappers. -/
def Compared (table : TemplateTable) (policy : MarkPolicy) (node : Node)
    (chain : List (Wrapper σ η)) (marks : List Mark) (fates : List (Fate σ η)) : Prop :=
  ∃ shared left opened top state after, sharing table chain marks = (shared, left) ∧
    MarksReported table policy node left top state opened after ∧ fates = shared ++ opened

namespace Compared

variable {table : TemplateTable} {policy : MarkPolicy} {node : Node} {mark : Mark}
  {marks : List Mark} {chain : List (Wrapper σ η)} {fates : List (Fate σ η)}

/-- Where no marks are left, no fates are. -/
theorem nil (h : Compared table policy node chain [] fates) : fates = [] := by
  obtain ⟨shared, left, opened, top, state, after, agree, hm, rfl⟩ := h
  rw [sharing] at agree
  cases agree
  cases hm
  rfl

/-- A mark without a template is passed. -/
theorem passed (h : Compared table policy node chain (mark :: marks) fates)
    (hm : table.hasMark mark.typeName = false) :
    ∃ rest, fates = .passed mark :: rest ∧ Compared table policy node chain marks rest := by
  obtain ⟨shared, left, opened, top, state, after, agree, hmarks, rfl⟩ := h
  cases chain with
  | nil =>
    rw [sharing_nil] at agree
    cases agree
    cases hmarks with
    | passed _ next => exact ⟨_, rfl, [], _, _, _, _, _, sharing_nil _ _, next, rfl⟩
    | opened known _ _ | dropped known _ _ _ =>
      rw [hm] at known
      cases known
  | cons w ws =>
    rw [sharing, if_neg (Bool.eq_false_iff.mp hm)] at agree
    cases agree
    exact ⟨_, rfl, _, _, _, _, _, _, rfl, hmarks, rfl⟩

/-- A mark that agrees with the next open wrapper goes on in it. -/
theorem shared {w : Wrapper σ η}
    (h : Compared table policy node (w :: chain) (mark :: marks) fates)
    (hm : table.hasMark mark.typeName = true) (hs : mark.same w.mark = true)
    (hspanning : w.mark.isSpanning = true) :
    ∃ rest, fates = .shared mark w :: rest ∧ Compared table policy node chain marks rest := by
  obtain ⟨shared, left, opened, top, state, after, agree, hmarks, rfl⟩ := h
  rw [sharing, if_pos hm, hs, hspanning, Bool.and_self, if_pos rfl] at agree
  cases agree
  exact ⟨_, rfl, _, _, _, _, _, _, rfl, hmarks, rfl⟩

/-- Inside all open wrappers a mark with a template has its wrapper opened, or is lost. -/
theorem opened (h : Compared table policy node [] (mark :: marks) fates)
    (hm : table.hasMark mark.typeName = true) :
    ∃ fate rest, fates = fate :: rest ∧ (fate.IsLost ∨ ∃ w, fate = .opened w) ∧
      Compared table policy node [] marks rest := by
  obtain ⟨shared, left, opened, top, state, after, agree, hmarks, rfl⟩ := h
  rw [sharing_nil] at agree
  cases agree
  cases hmarks with
  | passed unknown _ =>
    rw [hm] at unknown
    cases unknown
  | opened _ _ next =>
    exact ⟨_, _, rfl, Or.inr ⟨_, rfl⟩, [], _, _, _, _, _, sharing_nil _ _, next, rfl⟩
  | dropped _ _ _ next =>
    exact ⟨_, _, rfl, Or.inl rfl, [], _, _, _, _, _, sharing_nil _ _, next, rfl⟩

/-- After a mark that does not agree with the next open wrapper, none is shared. -/
theorem apart {w : Wrapper σ η}
    (h : Compared table policy node (w :: chain) (mark :: marks) fates)
    (hm : table.hasMark mark.typeName = true) (hs : mark.same w.mark = false)
    (ho : ∀ v, .opened v ∉ fates) : wrappersOf fates = [] := by
  obtain ⟨shared, left, opened, top, state, after, agree, hmarks, rfl⟩ := h
  rw [sharing, if_pos hm, hs, Bool.false_and, if_neg Bool.false_ne_true] at agree
  cases agree
  refine List.filterMap_eq_nil_iff.mpr fun fate hfate => ?_
  cases fate with
  | shared other v => exact absurd hfate (hmarks.not_shared other v)
  | opened v => exact absurd hfate (ho v)
  | passed | dropped => rfl

end Compared

/-- What is lost on a node does no harm to what the next one shares: it stands behind all wrappers,
and the next one loses it again. -/
structure LosesAlike (fates others : List (Fate σ η)) : Prop where
  last : fates.Pairwise fun outer inner => outer.IsLost → inner.wrapper? = none
  again : List.Forall₂ (fun fate other => fate.IsLost → other.IsLost) fates others

omit [TreeBuilder σ η] in
/-- Losses are alike if the first ones are, as far as a wrapper comes after them, and the rest are.
-/
theorem losesAlike_cons {fate other : Fate σ η} {fates others : List (Fate σ η)} :
    LosesAlike (fate :: fates) (other :: others) ↔
      (fate.IsLost → wrappersOf fates = [] ∧ other.IsLost) ∧ LosesAlike fates others := by
  constructor
  · rintro ⟨hlast, hagain⟩
    obtain ⟨hfirst, hlast⟩ := List.pairwise_cons.mp hlast
    obtain ⟨hother, hagain⟩ := List.forall₂_cons.mp hagain
    refine ⟨fun hlost => ⟨?_, hother hlost⟩, hlast, hagain⟩
    exact List.filterMap_eq_nil_iff.mpr fun inner hmem => hfirst inner hmem hlost
  · rintro ⟨hlost, hlast, hagain⟩
    refine ⟨List.pairwise_cons.mpr ⟨fun inner hmem hf => ?_, hlast⟩, .cons (fun hf => ?_) hagain⟩
    · exact List.filterMap_eq_nil_iff.mp (hlost hf).1 inner hmem
    · exact (hlost hf).2

omit [TreeBuilder σ η] in
/-- A mark that is lost has no wrapper. -/
theorem Fate.IsLost.wrapper?_eq {fate : Fate σ η} (h : fate.IsLost) : fate.wrapper? = none := by
  cases fate with
  | dropped => rfl
  | passed | shared | opened => cases h

omit [TreeBuilder σ η] in
/-- A wrapper that marks follow is for a mark of the type of one of them. -/
theorem exists_same_of_follows {table : TemplateTable} {marks : List Mark}
    {fates : List (Fate σ η)} (h : List.Forall₂ (Follows table) marks fates) {w : Wrapper σ η}
    (hw : w ∈ wrappersOf fates) : ∃ mark ∈ marks, mark.same w.mark = true := by
  induction h with
  | nil => cases hw
  | @cons mark fate marks fates hfirst hrest ih =>
    have hlater (hmem : w ∈ wrappersOf fates) :
        ∃ other ∈ mark :: marks, other.same w.mark = true := by
      obtain ⟨other, hother, hsame⟩ := ih hmem
      exact ⟨other, List.mem_cons_of_mem _ hother, hsame⟩
    cases hfirst with
    | continues hc =>
      cases hc with
      | passed => exact hlater hw
      | wrapper v hv _ hsame _ =>
        rw [wrappersOf, List.filterMap_cons_some hv] at hw
        rcases List.mem_cons.mp hw with rfl | hmem
        · exact ⟨mark, List.mem_cons_self, hsame⟩
        · exact hlater hmem
    | lost hlost _ =>
      rw [wrappersOf, List.filterMap_cons_none hlost.wrapper?_eq] at hw
      exact hlater hw

omit [TreeBuilder σ η] in
/-- A mark whose type is none of those that follow some wrappers agrees with none of these. -/
theorem same_eq_false_of_follows {table : TemplateTable} {mark : Mark} {marks : List Mark}
    {fates : List (Fate σ η)} (h : List.Forall₂ (Follows table) marks fates)
    (hd : ∀ inner ∈ marks, mark.typeName ≠ inner.typeName) {w : Wrapper σ η}
    (hw : w ∈ wrappersOf fates) : mark.same w.mark = false := by
  obtain ⟨other, hmem, hsame⟩ := exists_same_of_follows h hw
  refine Bool.eq_false_iff.mpr fun hs => hd other hmem ?_
  have htype := eq_of_beq (Bool.and_eq_true_iff.mp hs).1
  exact htype.trans (eq_of_beq (Bool.and_eq_true_iff.mp hsame).1).symm

/-- A mark that follows a lost one does no harm if it is lost again and no wrapper comes after it,
given that this is so of the marks inside. -/
theorem Compared.goesOn_iff_of_isLost {table : TemplateTable} {policy : MarkPolicy} {node : Node}
    {mark : Mark} {marks : List Mark} {fate : Fate σ η} {fates others : List (Fate σ η)}
    (hlost : fate.IsLost) (hmark : table.hasMark mark.typeName = true)
    (hf : List.Forall₂ (Follows table) marks fates)
    (hd : ∀ inner ∈ marks, mark.typeName ≠ inner.typeName)
    (hinner : ∀ {rest : List (Fate σ η)},
      Compared table policy node (wrappersOf fates) marks rest →
        ((wrappersOf rest = wrappersOf fates ∧ ∀ w, .opened w ∉ rest) ↔ LosesAlike fates rest))
    (h : Compared table policy node (wrappersOf fates) (mark :: marks) others) :
    (wrappersOf others = wrappersOf fates ∧ ∀ w, .opened w ∉ others) ↔
      LosesAlike (fate :: fates) others := by
  cases hws : wrappersOf fates with
  | nil =>
    rw [hws] at h hinner
    obtain ⟨other, rest, rfl, hcase, hnext⟩ := h.opened hmark
    rw [losesAlike_cons, ← hinner hnext, hws]
    rcases hcase with hagain | ⟨w, rfl⟩
    · have hskip : wrappersOf (other :: rest) = wrappersOf rest :=
        List.filterMap_cons_none hagain.wrapper?_eq
      have hne : ∀ w, .opened w ≠ other := by
        rintro w rfl
        cases hagain
      simp [hskip, hne, hagain]
    · refine iff_of_false (fun hl => hl.2 w List.mem_cons_self) fun hl => ?_
      cases (hl.1 hlost).2
  | cons v vs =>
    have hv : v ∈ wrappersOf fates := hws ▸ List.mem_cons_self
    rw [hws] at h
    refine iff_of_false (fun ⟨hall, hnone⟩ => ?_) fun hl => ?_
    · rw [h.apart hmark (same_eq_false_of_follows hf hd hv) hnone] at hall
      cases hall
    · obtain ⟨inner, hmem, hwrap⟩ := List.mem_filterMap.mp hv
      have hnone := (List.pairwise_cons.mp hl.last).1 inner hmem hlost
      rw [hwrap] at hnone
      cases hnone

/-- Marks of different types go on in all wrappers that they follow, and no other is opened for
them, exactly if what was lost does no harm. -/
theorem Compared.goesOn_iff {table : TemplateTable} {policy : MarkPolicy} {node : Node}
    {marks : List Mark} {fates others : List (Fate σ η)}
    (hf : List.Forall₂ (Follows table) marks fates)
    (hd : marks.Pairwise fun outer inner => outer.typeName ≠ inner.typeName)
    (h : Compared table policy node (wrappersOf fates) marks others) :
    (wrappersOf others = wrappersOf fates ∧ ∀ w, .opened w ∉ others) ↔
      LosesAlike fates others := by
  induction hf generalizing others with
  | nil =>
    rw [h.nil]
    exact iff_of_true ⟨rfl, fun _ => List.not_mem_nil⟩ ⟨.nil, .nil⟩
  | @cons mark fate marks fates hfirst hrest ih =>
    obtain ⟨hother, hd⟩ := List.pairwise_cons.mp hd
    cases hfirst with
    | continues hc =>
      cases hc with
      | @passed other hmark =>
        obtain ⟨rest, rfl, hnext⟩ := h.passed hmark
        rw [losesAlike_cons, ← ih hd hnext]
        simp [Fate.IsLost, Fate.loss?]
      | wrapper w hw hmark hsame hspanning =>
        have hchain : wrappersOf (fate :: fates) = w :: wrappersOf fates :=
          List.filterMap_cons_some hw
        have hkept : ¬fate.IsLost := fun hlost => by
          rw [hlost.wrapper?_eq] at hw
          cases hw
        rw [hchain] at h ⊢
        obtain ⟨rest, rfl, hnext⟩ := h.shared hmark hsame hspanning
        rw [losesAlike_cons, ← ih hd hnext]
        simp [hkept]
    | lost hlost hmark =>
      have hchain : wrappersOf (fate :: fates) = wrappersOf fates :=
        List.filterMap_cons_none hlost.wrapper?_eq
      rw [hchain] at h ⊢
      exact h.goesOn_iff_of_isLost hlost hmark hrest hother (fun hnext => ih hd hnext)

/-! ### The next node -/

/-- How a node goes on after its neighbour, in what is built in a target. -/
structure GoesOn (table : TemplateTable) (policy : MarkPolicy) (target : η) (node : Node)
    (before report : Report (Traced σ η) η) (after : Guarded (Traced σ η)) : Prop where
  chain : report.chain = before.chain
  opened : ∀ w, .opened w ∉ report.fates
  /-- Between the two appends to one parent, the inner rendering of the second node is built, and
  nothing else. -/
  between : ∃ start built : Guarded (Traced σ η),
    (∃ calls, start.tree.calls =
      calls ++ [.append (placeIn target before.chain) before.inner]) ∧
    renderNode table policy node start = (.ok report.inner, built) ∧
    built.tree.calls ++ [.append (placeIn target before.chain) report.inner] <+:
      after.tree.calls

/-- A node whose marks agree with all that became of those of the node before goes on in its
wrappers. -/
theorem NodesReported.goesOn {table : TemplateTable} {policy : MarkPolicy} {target : η}
    {node : Node} {rest : List Node} {before report : Report (Traced σ η) η}
    {reports : List (Report (Traced σ η) η)} {state after : Guarded (Traced σ η)}
    (h : NodesReported table policy target before.chain (node :: rest)
      (state.appended (placeIn target before.chain) before.inner) (report :: reports) after)
    (hc : List.Forall₂ (Continues table) node.marks before.fates) :
    GoesOn table policy target node before report after := by
  obtain ⟨hchain, hleft⟩ := sharing_of_continues hc
  rw [← Report.chain] at hchain hleft
  cases h with
  | @cons _ _ _ _ shared left opened inside other others built reports _ agree marks built_eq
      next =>
    rw [agree] at hchain hleft
    obtain ⟨rfl, hnone⟩ := marks.of_unknown hleft
    have hall : wrappersOf (shared ++ opened) = before.chain := by
      rw [wrappersOf_append, hchain, hnone, List.append_nil]
    refine ⟨hall, fun w hw => ?_, state.appended _ before.inner, built, ⟨state.tree.calls, rfl⟩,
      ?_, ?_⟩
    · have hmem : w ∈ wrappersOf opened :=
        List.mem_filterMap.mpr ⟨_, mem_opened_of_agree agree hw, rfl⟩
      rw [hnone] at hmem
      cases hmem
    · rw [renderNode_eq_report, Building.map_apply]
      exact congrArg (fun run => (run.1.map Prod.fst, run.2)) built_eq
    · rw [hall] at next
      exact next.keeps progress_calls

/-- A node of which all marks follow those of the node before shares all of its wrappers, and no
other is opened for it, exactly if what was lost does no harm. -/
theorem NodesReported.goesOn_iff {table : TemplateTable} {policy : MarkPolicy} {target : η}
    {node : Node} {rest : List Node} {before report : Report σ η} {reports : List (Report σ η)}
    {state after : Guarded σ} (h : NodesReported table policy target before.chain (node :: rest)
      state (report :: reports) after)
    (hf : List.Forall₂ (Follows table) node.marks before.fates)
    (hd : node.marks.Pairwise fun outer inner => outer.typeName ≠ inner.typeName) :
    (report.chain = before.chain ∧ ∀ w, .opened w ∉ report.fates) ↔
      LosesAlike before.fates report.fates := by
  cases h with
  | cons agree marks _ _ => exact Compared.goesOn_iff hf hd ⟨_, _, _, _, _, _, agree, marks, rfl⟩

/-- The marks of a sibling that are equal to those of the node before follow what became of these,
and the siblings from there on are compared with the wrappers of that node. -/
theorem NodesReported.neighbours {pool : Pool} {table : TemplateTable} {policy : MarkPolicy}
    {target : η} {chain : List (Wrapper (Traced σ η) η)} {nodes : List Node}
    {state after : Guarded (Traced σ η)} {reports : List (Report (Traced σ η) η)}
    (h : NodesReported table policy target chain nodes state reports after)
    (hn : ∀ node ∈ nodes, ∀ mark ∈ node.marks, pool.has mark.attrs)
    (hc : ∀ w ∈ chain, pool.has w.mark.attrs) {i : Nat} {first second : Node}
    {before report : Report (Traced σ η) η} (hfirst : nodes[i]? = some first)
    (hsecond : nodes[i + 1]? = some second) (hbefore : reports[i]? = some before)
    (hreport : reports[i + 1]? = some report)
    (hsame : List.Forall₂ (fun mark other => mark.same other = true) second.marks first.marks)
    (hspanning : ∀ mark ∈ first.marks, mark.isSpanning = true) :
    List.Forall₂ (Follows table) second.marks before.fates ∧
      (policy = .strict → before.losses = []) ∧ ∃ (start : Guarded (Traced σ η)) (rest : List Node)
        (others : List (Report (Traced σ η) η)),
        NodesReported table policy target before.chain (second :: rest)
          (start.appended (placeIn target before.chain) before.inner) (report :: others) after := by
  induction h generalizing i with
  | nil => cases hfirst
  | @cons chain node rest state shared left opened inside inner content built reports after
      agree marks built_eq next ih =>
    obtain ⟨hmarks, hsound⟩ := marks.sound_of_agree agree
    obtain ⟨hown, hrest⟩ := List.forall_mem_cons.mp hn
    have hwrap : ∀ fate ∈ shared ++ opened, ∀ w ∈ fate.wrapper?, pool.has w.mark.attrs :=
      fun fate hf w hw =>
        (marks.wrapper_cases agree hf hw).elim (hown _) fun hopen => hc w hopen.1
    cases i with
    | zero =>
      obtain rfl := Option.some.inj hfirst
      obtain rfl := Option.some.inj hbefore
      have hlost (hstrict : policy = .strict) :
          (shared ++ opened).filterMap Fate.loss? = [] := by
        have hnone := sharing_losses table chain node.marks
        rw [agree] at hnone
        rw [List.filterMap_append, hnone, marks.lossless hstrict, List.append_nil]
      have hspan : ∀ fate ∈ shared ++ opened, ∀ w ∈ fate.wrapper?, w.mark.isSpanning = true :=
        fun fate hf w hw =>
          (marks.wrapper_cases agree hf hw).elim (hspanning _) fun hopen => hopen.2
      have hfates : ∀ fate ∈ shared ++ opened, pool.has fate.mark.attrs := fun fate hf =>
        hown _ (hmarks ▸ List.mem_map_of_mem hf)
      rw [← hmarks, List.forall₂_map_right_iff] at hsame
      cases rest with
      | nil => cases hsecond
      | cons other rest =>
        obtain rfl := Option.some.inj hsecond
        obtain ⟨others, rfl⟩ : ∃ others, reports = report :: others := by
          cases reports with
          | nil => cases hreport
          | cons found others =>
            obtain rfl := Option.some.inj hreport
            exact ⟨others, rfl⟩
        have hfollows := forall₂_follows hsound
          (fun fate hf w hw => ⟨hwrap fate hf w hw, hspan fate hf w hw⟩)
          (hrest _ List.mem_cons_self) hfates hsame
        exact ⟨hfollows, hlost, built, rest, others, next⟩
    | succ i =>
      refine ih hrest (fun w hw => ?_) hfirst hsecond hbefore hreport
      obtain ⟨fate, hf, hw⟩ := List.mem_filterMap.mp hw
      exact hwrap fate hf w hw

/-- The maps of the children of a loaded document were made, and the marks of each child have
different types. -/
theorem Schema.Loads.children_apart {schema : Schema} {document : Node}
    (h : schema.Loads document) : ∀ node ∈ document.content,
      (∀ mark ∈ node.marks, h.pool.has mark.attrs) ∧
        node.marks.Pairwise fun outer inner => outer.typeName ≠ inner.typeName := fun node hnode =>
  ⟨fun _ hmark => (h.maps_content node hnode).marks hmark,
    h.distinct_marks (.content hnode (.self node))⟩

/-- Of two adjacent nodes with equal marks of spanning types, the second goes on in the wrappers of
the first: both inner renderings are appended to one parent, and nothing but the second of them is
built in between. Under the lenient policy this holds if no template of a mark of the first failed.
If the types of the marks differ, the second node has the wrappers of the first, and no other is
opened for it, exactly if each mark that was lost on the first stands behind all wrappers and is
lost on the second too. The children of a loaded document meet both conditions. -/
theorem serializeFragment_neighbours {pool : Pool} {table : TemplateTable} {policy : MarkPolicy}
    {fragment : Fragment} {target : Option η} {state after : Guarded (Traced σ η)} {root : η}
    (hm : ∀ node ∈ fragment, ∀ mark ∈ node.marks, pool.has mark.attrs)
    (h : serializeFragment table policy fragment target state = (.ok root, after)) :
    ∃ reports, reportFragment table policy fragment target state = (.ok (root, reports), after) ∧
      reports.length = fragment.length ∧
      ∀ i first second before report,
        fragment[i]? = some first → fragment[i + 1]? = some second →
        reports[i]? = some before → reports[i + 1]? = some report →
        List.Forall₂ (fun mark other => mark.same other = true) second.marks first.marks →
        (∀ mark ∈ first.marks, mark.isSpanning = true) →
        (policy = .strict ∨ before.losses = [] →
          GoesOn table policy root second before report after) ∧
        (second.marks.Pairwise (fun outer inner => outer.typeName ≠ inner.typeName) →
          ((report.chain = before.chain ∧ ∀ w, .opened w ∉ report.fates) ↔
            LosesAlike before.fates report.fates)) := by
  obtain ⟨reports, hr⟩ := exists_report h
  obtain ⟨container, start, -, hrest⟩ := Building.bind_eq_ok.mp hr
  obtain ⟨others, t, hn, hp⟩ := Building.bind_eq_ok.mp hrest
  cases hp
  have hn := nodesReported hn
  refine ⟨reports, hr, hn.length_eq, ?_⟩
  intro i first second before report hfirst hsecond hbefore hreport hsame hspanning
  obtain ⟨hfollows, hstrict, _, _, _, hnext⟩ := hn.neighbours hm (List.forall_mem_nil _) hfirst
    hsecond hbefore hreport hsame hspanning
  refine ⟨fun hloss => ?_, fun hd => hnext.goesOn_iff hfollows hd⟩
  have hlossless : before.losses = [] := hloss.elim hstrict id
  exact hnext.goesOn (forall₂_continues hfollows hlossless)

/-- Texts with equal marks. -/
def sampleAlike (marks : List String) : Fragment := [sampleText "a" marks, sampleText "b" marks]

set_option maxRecDepth 10000 in
/-- Two texts with equal marks, of which two have templates and none fails, so nothing is lost. -/
theorem serializeFragment_neighbours_sample :
    ∃ (before report : Report (Traced Script Nat) Nat) (after : Guarded (Traced Script Nat)),
      reportFragment sampleTable .lenient (sampleAlike ["em", "unknown", "strong"]) none
          ⟨.empty, ⟨.empty, []⟩⟩ = (.ok (1, [before, report]), after) ∧
        before.chain.length = 2 ∧
        GoesOn sampleTable .lenient 1 (sampleText "b" ["em", "unknown", "strong"]) before report
          after ∧ LosesAlike before.fates report.fates := by
  have h : (serializeFragment sampleTable .lenient (sampleAlike ["em", "unknown", "strong"]) none :
      Guarding (Traced Script Nat) Nat) ⟨.empty, ⟨.empty, []⟩⟩ =
        (.ok 1, (serializeFragment sampleTable .lenient (sampleAlike ["em", "unknown", "strong"])
          none ⟨.empty, ⟨.empty, []⟩⟩).2) := Prod.ext rfl rfl
  have hmaps : ∀ node ∈ sampleAlike ["em", "unknown", "strong"], ∀ mark ∈ node.marks,
      Pool.blank.has mark.attrs :=
    List.forall_mem_cons.mpr ⟨fun _ hmark => (maps_sampleText _ _).marks hmark,
      List.forall_mem_singleton.mpr fun _ hmark => (maps_sampleText _ _).marks hmark⟩
  obtain ⟨reports, hr, hlength, hgoes⟩ := serializeFragment_neighbours hmaps h
  have hl : ((reportFragment sampleTable .lenient (sampleAlike ["em", "unknown", "strong"]) none
      (⟨.empty, ⟨.empty, []⟩⟩ : Guarded (Traced Script Nat))).1.toOption.map fun result =>
        result.2.map fun report => (report.chain.length, report.losses.length)) =
      some [(2, 0), (2, 0)] := rfl
  obtain ⟨before, report, rfl⟩ := List.length_eq_two.mp hlength
  rw [hr] at hl
  obtain ⟨hbefore, -⟩ := List.cons.inj (Option.some.inj hl)
  obtain ⟨hchain, hlosses⟩ := Prod.mk.inj hbefore
  obtain ⟨hshares, hexact⟩ := hgoes 0 _ _ before report rfl rfl rfl rfl
    (.cons rfl (.cons rfl (.cons rfl .nil))) (by decide)
  have hgoesOn := hshares (Or.inr (List.eq_nil_of_length_eq_zero hlosses))
  exact ⟨before, report, _, hr, hchain, hgoesOn,
    (hexact (by decide)).mp ⟨hgoesOn.chain, hgoesOn.opened⟩⟩

set_option maxRecDepth 10000 in
/-- Two texts with equal marks do not share a wrapper that stands after a mark whose template
failed: it is closed, and another one is opened for the second text. -/
theorem alike_apart_after_loss :
    ∃ (before report : Report Script Nat) (after : Guarded Script),
      reportFragment sampleTable .lenient (sampleAlike ["broken", "em"]) none ⟨.empty, .empty⟩ =
          (.ok (1, [before, report]), after) ∧
        (sampleAlike ["broken", "em"]).map Node.marks =
          [["broken", "em"].map sampleMark, ["broken", "em"].map sampleMark] ∧
        List.Forall₂ (fun mark other : Mark => mark.same other = true)
          (["broken", "em"].map sampleMark) (["broken", "em"].map sampleMark) ∧
        (∀ mark ∈ ["broken", "em"].map sampleMark, mark.isSpanning = true) ∧
        placeIn 1 before.chain ≠ placeIn 1 report.chain ∧ ∃ w, .opened w ∈ report.fates := by
  refine ⟨_, _, _, rfl, rfl, .cons rfl (.cons rfl .nil), by decide, ?_, ?_⟩
  · decide
  · exact ⟨_, List.mem_cons_of_mem _ List.mem_cons_self⟩

end RichDoc
