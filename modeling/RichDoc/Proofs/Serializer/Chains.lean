import RichDoc.Proofs.Serializer.Losses
import RichDoc.Proofs.Serializer.Timeline
import Mathlib.Data.List.Forall2

/-!
# Every node under its own marks

While siblings are built, the wrappers that are open form a chain: each hangs on the place before
it. What can be said of the places of that chain is kept up from one sibling to the next, whatever
is closed, opened or lost in between: nothing but the wrappers of the chain is above them, and what
was appended to them before comes before what is appended to them next. From this follows where
each sibling ends up.
-/

namespace RichDoc

open Script

/-- A node comes before another one in document order: they are at or below two children of one
node, and the child above the first was appended earlier. -/
def Precedes (edges : List (Nat × Nat)) (a b : Nat) : Prop :=
  ∃ earlier later, edges = earlier ++ later ∧
    ∃ parent x y, (parent, x) ∈ earlier ∧ (parent, y) ∈ later ∧
      Reaches edges x a ∧ Reaches edges y b

/-- What is appended to a place next comes behind a node. -/
def Passed (edges : List (Nat × Nat)) (a place : Nat) : Prop :=
  (∃ x, (place, x) ∈ edges ∧ Reaches edges x a) ∨ Precedes edges a place

namespace Precedes

variable {edges : List (Nat × Nat)} {a b c : Nat}

theorem append (h : Precedes edges a b) (more : List (Nat × Nat)) :
    Precedes (edges ++ more) a b := by
  obtain ⟨earlier, later, rfl, parent, x, y, hx, hy, ha, hb⟩ := h
  exact ⟨earlier, later ++ more, List.append_assoc .., parent, x, y, hx,
    List.mem_append_left _ hy, ha.append more, hb.append more⟩

theorem below (h : Precedes edges a b) (hr : Reaches edges b c) : Precedes edges a c := by
  obtain ⟨earlier, later, he, parent, x, y, hx, hy, ha, hb⟩ := h
  exact ⟨earlier, later, he, parent, x, y, hx, hy, ha, hb.trans hr⟩

end Precedes

namespace Passed

variable {edges : List (Nat × Nat)} {a place : Nat}

theorem append (h : Passed edges a place) (more : List (Nat × Nat)) :
    Passed (edges ++ more) a place := by
  rcases h with ⟨x, hx, ha⟩ | h
  · exact Or.inl ⟨x, List.mem_append_left _ hx, ha.append more⟩
  · exact Or.inr (h.append more)

/-- What is appended to a place comes behind the nodes that the place has passed. -/
theorem precedes (h : Passed edges a place) (child : Nat) :
    Precedes (edges ++ [(place, child)]) a child := by
  have hedge : (place, child) ∈ [(place, child)] := List.mem_singleton.mpr rfl
  rcases h with ⟨x, hx, ha⟩ | h
  · exact ⟨edges, _, rfl, place, x, child, hx, hedge, ha.append _, .refl _ _⟩
  · exact (h.append _).below (.edge (List.mem_append_right _ hedge))

end Passed

/-- Each wrapper of a chain was appended to the place before it, and its place is at or below its
outermost node. -/
def Hung (edges : List (Nat × Nat)) : Nat → List (Wrapper Script Nat) → Prop
  | _, [] => True
  | parent, w :: ws =>
    (parent, w.root) ∈ edges ∧ Reaches edges w.root w.place ∧ Hung edges w.place ws

namespace Hung

variable {edges : List (Nat × Nat)} {target : Nat} {chain : List (Wrapper Script Nat)}

theorem mono {more : List (Nat × Nat)} (h : Hung edges target chain)
    (hs : ∀ e ∈ edges, e ∈ more) : Hung more target chain := by
  induction chain generalizing target with
  | nil => exact trivial
  | cons w ws ih => exact ⟨hs _ h.1, h.2.1.mono hs, ih h.2.2⟩

theorem of_isPrefix {pre : List (Wrapper Script Nat)} (h : Hung edges target chain)
    (hp : pre <+: chain) : Hung edges target pre := by
  induction chain generalizing target pre with
  | nil =>
    rw [List.prefix_nil.mp hp]
    exact trivial
  | cons w ws ih =>
    rcases List.prefix_cons_iff.mp hp with rfl | ⟨rest, rfl, hrest⟩
    · exact trivial
    · exact ⟨h.1, h.2.1, ih h.2.2 hrest⟩

theorem concat {w : Wrapper Script Nat} (h : Hung edges target chain)
    (he : (placeIn target chain, w.root) ∈ edges) (hr : Reaches edges w.root w.place) :
    Hung edges target (chain ++ [w]) := by
  induction chain generalizing target with
  | nil => exact ⟨he, hr, trivial⟩
  | cons v vs ih => exact ⟨h.1, h.2.1, ih h.2.2 he⟩

/-- The innermost place is reached from the outermost. -/
theorem reaches (h : Hung edges target chain) : Reaches edges target (placeIn target chain) := by
  induction chain generalizing target with
  | nil => exact .refl _ _
  | cons w ws ih => exact ((Reaches.edge h.1).trans h.2.1).trans (ih h.2.2)

/-- Each place of a chain has a child above what is appended to the innermost one. -/
theorem child {inner : Nat} (h : Hung edges target chain)
    (hi : (placeIn target chain, inner) ∈ edges) {pre : List (Wrapper Script Nat)}
    (hp : pre <+: chain) : ∃ x, (placeIn target pre, x) ∈ edges ∧ Reaches edges x inner := by
  induction chain generalizing target pre with
  | nil =>
    rw [List.prefix_nil.mp hp]
    exact ⟨inner, hi, .refl _ _⟩
  | cons w ws ih =>
    rcases List.prefix_cons_iff.mp hp with rfl | ⟨rest, rfl, hrest⟩
    · exact ⟨w.root, h.1, (h.2.1.trans h.2.2.reaches).trans (.edge hi)⟩
    · exact ih h.2.2 hi hrest

end Hung

/-- Where siblings can be appended is the place inside some of the wrappers. -/
theorem OnChain.exists_isPrefix {target : Nat} {chain : List (Wrapper Script Nat)} {x : Nat}
    (h : OnChain target chain x) : ∃ pre, pre <+: chain ∧ x = placeIn target pre := by
  induction chain generalizing target with
  | nil =>
    rcases h with rfl | ⟨w, hw, -⟩
    · exact ⟨[], List.nil_prefix, rfl⟩
    · cases hw
  | cons w ws ih =>
    have hcase : x = target ∨ OnChain w.place ws x := by
      rcases h with h | ⟨v, hv, h⟩
      · exact Or.inl h
      · rcases List.mem_cons.mp hv with rfl | hv
        · exact Or.inr (Or.inl h)
        · exact Or.inr (Or.inr ⟨v, hv, h⟩)
    rcases hcase with rfl | h
    · exact ⟨[], List.nil_prefix, rfl⟩
    · obtain ⟨pre, hp, hx⟩ := ih h
      exact ⟨w :: pre, (List.prefix_cons_inj w).mpr hp, hx⟩

/-- What holds of an open chain in a script, with nodes that have been appended to its places. -/
structure Standing (base target : Nat) (script : Script) (chain : List (Wrapper Script Nat))
    (placed : List Nat) : Prop where
  closed : script.Closed
  hung : Hung script.edges target chain
  ordered : chain.Pairwise Wrapper.Before
  built : ∀ w ∈ chain, w.after.tree.count ≤ script.count
  places : ∀ pre, pre <+: chain → placeIn target pre ≤ script.count
  /-- All nodes above a place, but for old ones, are parts of the wrappers around it. -/
  above : ∀ pre, pre <+: chain → ∀ y, base < y → Reaches script.edges y (placeIn target pre) →
    ∃ w ∈ pre, w.Made y
  passed : ∀ pre, pre <+: chain → ∀ a ∈ placed, Passed script.edges a (placeIn target pre)

namespace Standing

variable {base target : Nat} {s t : Script} {chain : List (Wrapper Script Nat)}
  {placed : List Nat}

/-- Nothing is open at first. -/
theorem start (hc : s.Closed) (hb : s.count ≤ base) (ht : target ≤ s.count) :
    Standing base target s [] [] where
  closed := hc
  hung := trivial
  ordered := List.Pairwise.nil
  built := List.forall_mem_nil _
  places pre hp := by
    rw [List.prefix_nil.mp hp]
    exact ht
  above pre hp y hy hr := by
    rw [List.prefix_nil.mp hp] at hr
    have hle := hc.le_of_reaches hr ht
    omega
  passed _ _ := List.forall_mem_nil _

/-- Growth changes nothing for the places that are there. -/
theorem grows {outer : Nat → Prop} (h : Standing base target s chain placed)
    (hg : Grows outer s t) : Standing base target t chain placed where
  closed := hg.closed h.closed
  hung := h.hung.mono fun _ he => hg.edges_isPrefix.subset he
  ordered := h.ordered
  built w hw := Nat.le_trans (h.built w hw) hg.1
  places pre hp := Nat.le_trans (h.places pre hp) hg.1
  above pre hp y hy hr := h.above pre hp y hy (hg.reaches_old h.closed (h.places pre hp) hr)
  passed pre hp a ha := by
    obtain ⟨more, he⟩ := hg.edges_isPrefix
    rw [← he]
    exact (h.passed pre hp a ha).append more

/-- Wrappers are closed from the innermost on. -/
theorem leave (h : Standing base target s chain placed) {pre : List (Wrapper Script Nat)}
    (hp : pre <+: chain) : Standing base target s pre placed where
  closed := h.closed
  hung := h.hung.of_isPrefix hp
  ordered := h.ordered.sublist hp.sublist
  built w hw := h.built w (hp.subset hw)
  places first hf := h.places first (hf.trans hp)
  above first hf := h.above first (hf.trans hp)
  passed first hf := h.passed first (hf.trans hp)

/-- All places of the chain have been created. -/
theorem onChain_le (h : Standing base target s chain placed) {x : Nat}
    (hx : OnChain target chain x) : x ≤ s.count := by
  obtain ⟨pre, hp, rfl⟩ := hx.exists_isPrefix
  exact h.places pre hp

/-- A wrapper is opened inside the innermost one. -/
theorem enter (mark : Mark) {rendered : Rendered Nat} {before built : Guarded Script}
    (h : Standing base target before.tree chain placed)
    (hm : Makes before.tree (.ok rendered) built.tree) :
    Standing base target (built.appended (placeIn target chain) rendered.root).tree
      (chain ++ [⟨mark, rendered, before, built⟩]) placed := by
  have htop := h.places chain (List.prefix_refl _)
  obtain ⟨hg, -⟩ := hm.hang htop
  obtain ⟨hreach, hnew, hle⟩ := hm.place mark
  have hold := h.grows hg
  have hedges := edges_appendChild built.tree (placeIn target chain) rendered.root
  have hedge : (placeIn target chain, rendered.root) ∈
      built.tree.edges ++ [(placeIn target chain, rendered.root)] :=
    List.mem_append_right _ (List.mem_singleton.mpr rfl)
  refine ⟨hold.closed, ?_, ?_, ?_, ?_, ?_, ?_⟩
  · refine hold.hung.concat ?_ ?_
    · exact hedges ▸ hedge
    · exact hedges ▸ hreach.append _
  · refine List.pairwise_append.mpr ⟨h.ordered, List.pairwise_singleton _ _, ?_⟩
    intro v hv w hw
    rw [List.mem_singleton.mp hw]
    exact h.built v hv
  · intro w hw
    rcases List.mem_append.mp hw with hw | hw
    · exact hold.built w hw
    · rw [List.mem_singleton.mp hw]
      exact Nat.le_refl _
  · intro pre hp
    rcases List.prefix_concat_iff.mp hp with rfl | hp
    · rw [placeIn_append]
      exact hle
    · exact hold.places pre hp
  · intro pre hp y hy hr
    rcases List.prefix_concat_iff.mp hp with rfl | hp
    · rw [placeIn_append] at hr
      have hyle := hold.closed.le_of_reaches hr hle
      by_cases hys : y ≤ before.tree.count
      · obtain ⟨x, rfl, hx⟩ := hg.reaches_new h.closed (fun x hx => hx ▸ htop) hys hnew hr
        obtain ⟨w, hw, hmade⟩ := h.above chain (List.prefix_refl _) y hy hx
        exact ⟨w, List.mem_append_left _ hw, hmade⟩
      · exact ⟨_, List.mem_append_right _ (List.mem_singleton.mpr rfl), Nat.lt_of_not_le hys, hyle⟩
    · exact hold.above pre hp y hy hr
  · intro pre hp a ha
    rcases List.prefix_concat_iff.mp hp with rfl | hp
    · rw [placeIn_append]
      have hpassed : Passed built.tree.edges a (placeIn target chain) := by
        obtain ⟨more, he⟩ := hm.1.edges_isPrefix
        exact he ▸ (h.passed chain (List.prefix_refl _) a ha).append more
      refine Or.inr ?_
      have hp := hpassed.precedes rendered.root
      exact hedges ▸ hp.below (hreach.append _)
    · exact hold.passed pre hp a ha

/-- The inner rendering of a node is appended to the innermost place. -/
theorem place {inner : Nat} (h : Standing base target s chain placed)
    (hg : Grows (fun _ => False) s t) (hlt : s.count < t.count) (hi : inner = s.count + 1) :
    Standing base target (TreeBuilder.appendChild t (placeIn target chain) inner) chain
        (placed ++ [inner]) ∧
      (∀ a ∈ placed, Precedes
        (TreeBuilder.appendChild t (placeIn target chain) inner : Script).edges a inner) ∧
      ∀ y, base < y → Reaches
        (TreeBuilder.appendChild t (placeIn target chain) inner : Script).edges y inner →
          y = inner ∨ ∃ w ∈ chain, w.Made y := by
  subst hi
  have hang := hg.hang hlt (h.places chain (List.prefix_refl _)) rfl
  have hold := h.grows hang
  have hedges := edges_appendChild t (placeIn target chain) (s.count + 1)
  have hedge : (placeIn target chain, s.count + 1) ∈
      t.edges ++ [(placeIn target chain, s.count + 1)] :=
    List.mem_append_right _ (List.mem_singleton.mpr rfl)
  refine ⟨{ hold with passed := ?_ }, ?_, ?_⟩
  · intro pre hp a ha
    rcases List.mem_append.mp ha with ha | ha
    · exact hold.passed pre hp a ha
    · rw [List.mem_singleton.mp ha]
      exact Or.inl (hold.hung.child (hedges ▸ hedge) hp)
  · intro a ha
    obtain ⟨more, he⟩ := hg.edges_isPrefix
    have hpassed := he ▸ (h.passed chain (List.prefix_refl _) a ha).append more
    exact hedges ▸ hpassed.precedes (s.count + 1)
  · intro y hy hr
    rcases hg.reaches_hung h.closed hr with rfl | hr
    · exact Or.inl rfl
    · exact Or.inr (hold.above chain (List.prefix_refl _) y hy hr)

end Standing

/-- What a fate tells is true of the mark, its node and the states it names. -/
def Fate.Sound {σ η : Type} [TreeBuilder σ η] (table : TemplateTable) (node : Node) :
    Fate σ η → Prop
  | .passed mark => table.hasMark mark.typeName = false
  | .shared mark w => table.hasMark mark.typeName = true ∧ mark.same w.mark = true
  | .opened w => table.hasMark w.mark.typeName = true ∧
      renderMark table w.mark node w.before = (.ok (some w.rendered), w.after)
  | .dropped mark error before after => table.hasMark mark.typeName = true ∧
      renderMark table mark node before =
        ((.error error : Except Error (Option (Rendered η))), after)

/-- Where a node ended up in a script: under the wrappers of its own marks, and no others. -/
structure Placed (table : TemplateTable) (script : Script) (base target : Nat) (node : Node)
    (report : Report Script Nat) : Prop where
  /-- Each mark has one fate, in order. -/
  marks : report.fates.map Fate.mark = node.marks
  sound : ∀ fate ∈ report.fates, fate.Sound table node
  hung : Hung script.edges target report.chain
  ordered : report.chain.Pairwise Wrapper.Before
  inner : (placeIn target report.chain, report.inner) ∈ script.edges
  /-- All nodes above the inner rendering, but for old ones, are parts of its wrappers. -/
  above : ∀ y, base < y → Reaches script.edges y report.inner →
    y = report.inner ∨ ∃ w ∈ report.chain, w.Made y

/-- Growth changes nothing for a node that has been placed. -/
theorem Placed.grows {table : TemplateTable} {s t : Script} {base target : Nat} {node : Node}
    {report : Report Script Nat} {outer : Nat → Prop}
    (h : Placed table s base target node report) (hc : s.Closed) (hg : Grows outer s t) :
    Placed table t base target node report :=
  { h with
    hung := h.hung.mono fun _ he => hg.edges_isPrefix.subset he
    inner := hg.edges_isPrefix.subset h.inner
    above := fun y hy hr => h.above y hy (hg.reaches_old hc (hc _ h.inner).2 hr) }

/-- Agreeing marks share wrappers of equal marks, and the marks that are left follow them. -/
theorem sharing_sound {σ η : Type} [TreeBuilder σ η] (table : TemplateTable) (node : Node)
    (chain : List (Wrapper σ η)) (marks : List Mark) :
    (sharing table chain marks).1.map Fate.mark ++ (sharing table chain marks).2 = marks ∧
      ∀ fate ∈ (sharing table chain marks).1, fate.Sound table node := by
  induction marks generalizing chain with
  | nil =>
    rw [sharing]
    exact ⟨rfl, List.forall_mem_nil _⟩
  | cons mark marks ih =>
    cases chain with
    | nil => exact ⟨rfl, List.forall_mem_nil _⟩
    | cons w ws =>
      rw [sharing]
      split
      · rename_i hm
        split
        · rename_i hs
          obtain ⟨he, hsound⟩ := ih ws
          refine ⟨congrArg (mark :: ·) he, List.forall_mem_cons.mpr ⟨⟨hm, ?_⟩, hsound⟩⟩
          exact (Bool.and_eq_true_iff.mp hs).1
        · exact ⟨rfl, List.forall_mem_nil _⟩
      · rename_i hm
        obtain ⟨he, hsound⟩ := ih (w :: ws)
        refine ⟨congrArg (mark :: ·) he, List.forall_mem_cons.mpr ⟨?_, hsound⟩⟩
        exact Bool.eq_false_iff.mpr hm

/-- Opening wrappers gives each mark its fate. -/
theorem MarksReported.sound {σ η : Type} [TreeBuilder σ η] {table : TemplateTable}
    {policy : MarkPolicy} {node : Node} {marks : List Mark} {top : η} {fates : List (Fate σ η)}
    {state after : Guarded σ} (h : MarksReported table policy node marks top state fates after) :
    fates.map Fate.mark = marks ∧ ∀ fate ∈ fates, fate.Sound table node := by
  induction h with
  | nil => exact ⟨rfl, List.forall_mem_nil _⟩
  | passed unknown _ ih =>
    exact ⟨congrArg (_ :: ·) ih.1, List.forall_mem_cons.mpr ⟨unknown, ih.2⟩⟩
  | opened known built_eq _ ih =>
    exact ⟨congrArg (_ :: ·) ih.1, List.forall_mem_cons.mpr ⟨⟨known, built_eq⟩, ih.2⟩⟩
  | dropped known failed_eq _ _ ih =>
    exact ⟨congrArg (_ :: ·) ih.1, List.forall_mem_cons.mpr ⟨⟨known, failed_eq⟩, ih.2⟩⟩

/-- What became of the marks of a node, those that agree with open wrappers first, is told in the
order of its marks. -/
theorem MarksReported.sound_of_agree {σ η : Type} [TreeBuilder σ η] {table : TemplateTable}
    {policy : MarkPolicy} {node : Node} {chain : List (Wrapper σ η)} {left : List Mark}
    {shared opened : List (Fate σ η)} {top : η} {state after : Guarded σ}
    (h : MarksReported table policy node left top state opened after)
    (agree : sharing table chain node.marks = (shared, left)) :
    (shared ++ opened).map Fate.mark = node.marks ∧
      ∀ fate ∈ shared ++ opened, fate.Sound table node := by
  obtain ⟨hshare, hsound⟩ := sharing_sound table node chain node.marks
  rw [agree] at hshare hsound
  obtain ⟨hopened, hsound'⟩ := h.sound
  refine ⟨?_, List.forall_mem_append.mpr ⟨hsound, hsound'⟩⟩
  rw [List.map_append, hopened, hshare]

/-- Opening wrappers makes the chain longer. -/
theorem MarksReported.standing {table : TemplateTable} {policy : MarkPolicy} {node : Node}
    {marks : List Mark} {top : Nat} {fates : List (Fate Script Nat)}
    {state after : Guarded Script}
    (h : MarksReported table policy node marks top state fates after) {base target : Nat}
    {chain : List (Wrapper Script Nat)} {placed : List Nat} (ht : placeIn target chain = top)
    (hs : Standing base target state.tree chain placed) :
    Standing base target after.tree (chain ++ wrappersOf fates) placed := by
  induction h generalizing chain with
  | nil => rwa [wrappersOf_nil, List.append_nil]
  | passed _ _ ih => exact ih ht hs
  | @opened mark rest top state rendered built fates after known built_eq next ih =>
    have hin := hs.enter mark (makes_of_renderMark built_eq)
    rw [ht] at hin
    have h := ih (by rw [placeIn_append]; rfl) hin
    rwa [List.append_assoc, List.singleton_append] at h
  | dropped _ failed_eq _ _ ih => exact ih ht (hs.grows (grows_of_renderMark failed_eq))

/-- Siblings end up one behind another, each under the wrappers of its own marks. -/
theorem NodesReported.placed {table : TemplateTable} {policy : MarkPolicy} {target : Nat}
    {chain : List (Wrapper Script Nat)} {nodes : List Node} {state after : Guarded Script}
    {reports : List (Report Script Nat)}
    (h : NodesReported table policy target chain nodes state reports after) {base : Nat}
    {placed : List Nat} (hs : Standing base target state.tree chain placed) :
    List.Forall₂ (Placed table after.tree base target) nodes reports ∧
      (∀ report ∈ reports, ∀ a ∈ placed, Precedes after.tree.edges a report.inner) ∧
      reports.Pairwise fun first second =>
        Precedes after.tree.edges first.inner second.inner := by
  induction h generalizing placed with
  | nil => exact ⟨.nil, List.forall_mem_nil _, .nil⟩
  | @cons chain node rest state shared left opened inside inner content built reports after
      agree marks built_eq next ih =>
    have hpre := sharing_wrappers table chain node.marks
    rw [agree] at hpre
    obtain ⟨hmarks, hsound⟩ := marks.sound_of_agree agree
    have hin := marks.standing rfl (hs.leave hpre)
    rw [← wrappersOf_append] at hin
    obtain ⟨hg, hlt, hinner, -⟩ := innerMade table policy node built_eq hin.closed
    obtain ⟨hout, hprec, habove⟩ := hin.place hg hlt hinner
    obtain ⟨hall, hlater, hpair⟩ := ih hout
    obtain ⟨hrest, -⟩ := next.grows (fun node _ => innerMade table policy node) hout.closed
      fun x hx => hout.onChain_le hx
    have hplaced : Placed table
        (built.appended (placeIn target (wrappersOf (shared ++ opened))) inner).tree base target
        node ⟨shared ++ opened, inner, content⟩ :=
      { marks := hmarks
        sound := hsound
        hung := hout.hung
        ordered := hout.ordered
        inner := by
          rw [Guarded.appended, edges_appendChild]
          exact List.mem_append_right _ (List.mem_singleton.mpr rfl)
        above := habove }
    refine ⟨.cons (hplaced.grows hout.closed hrest) hall, ?_, List.pairwise_cons.mpr ⟨?_, hpair⟩⟩
    · intro report hmem a ha
      rcases List.mem_cons.mp hmem with rfl | hmem
      · obtain ⟨more, he⟩ := hrest.edges_isPrefix
        exact he ▸ (hprec a ha).append more
      · exact hlater report hmem a (List.mem_append_left _ ha)
    · intro report hmem
      exact hlater report hmem inner (List.mem_append_right _ (List.mem_singleton.mpr rfl))

/-- No wrapper is shared among the marks that are left to open. -/
theorem MarksReported.not_shared {σ η : Type} [TreeBuilder σ η] {table : TemplateTable}
    {policy : MarkPolicy} {node : Node} {marks : List Mark} {top : η} {fates : List (Fate σ η)}
    {state after : Guarded σ} (h : MarksReported table policy node marks top state fates after)
    (mark : Mark) (w : Wrapper σ η) : .shared mark w ∉ fates := by
  induction h with
  | nil => exact List.not_mem_nil
  | passed _ _ ih | opened _ _ _ ih | dropped _ _ _ _ ih =>
    rw [List.mem_cons, not_or]
    refine ⟨?_, ih⟩
    intro hsame
    cases hsame

/-- Wrappers are opened for the marks that are left, not for those that agree. -/
theorem mem_opened_of_agree {σ η : Type} {table : TemplateTable} {chain : List (Wrapper σ η)}
    {marks left : List Mark} {shared opened : List (Fate σ η)}
    (agree : sharing table chain marks = (shared, left)) {w : Wrapper σ η}
    (h : .opened w ∈ shared ++ opened) : .opened w ∈ opened := by
  have hshare := forall_mem_sharing (p := fun fate : Fate σ η => ∀ w, fate ≠ .opened w)
    (fun _ _ => nofun) (fun _ _ _ => nofun) table chain marks
  rw [agree] at hshare
  exact (List.mem_append.mp h).resolve_left fun hw => hshare _ hw w rfl

/-- A wrapper that is shared was opened for an earlier sibling. -/
theorem NodesReported.shared_opened {σ η : Type} [TreeBuilder σ η] {table : TemplateTable}
    {policy : MarkPolicy} {target : η} {chain : List (Wrapper σ η)} {nodes : List Node}
    {state after : Guarded σ} {reports : List (Report σ η)}
    (h : NodesReported table policy target chain nodes state reports after)
    (earlier : List (Report σ η))
    (hc : ∀ w ∈ chain, ∃ report ∈ earlier, .opened w ∈ report.fates)
    {first last : List (Report σ η)} {report : Report σ η} (hr : reports = first ++ report :: last)
    {mark : Mark} {w : Wrapper σ η} (hw : .shared mark w ∈ report.fates) :
    ∃ other ∈ earlier ++ first, .opened w ∈ other.fates := by
  induction h generalizing earlier first with
  | nil => cases first <;> cases hr
  | @cons chain node rest state shared left opened inside inner content built reports after
      agree marks built_eq next ih =>
    have hpre : wrappersOf shared <+: chain := by
      have h := sharing_wrappers table chain node.marks
      rwa [agree] at h
    cases first with
    | nil =>
      obtain ⟨rfl, -⟩ := List.cons.inj hr
      rcases List.mem_append.mp hw with hw | hw
      · have hmem : w ∈ wrappersOf shared := List.mem_filterMap.mpr ⟨_, hw, rfl⟩
        obtain ⟨other, ho, hopen⟩ := hc w (hpre.subset hmem)
        exact ⟨other, List.mem_append_left _ ho, hopen⟩
      · exact absurd hw (marks.not_shared mark w)
    | cons head first =>
      obtain ⟨rfl, htail⟩ := List.cons.inj hr
      have hnext : ∀ v ∈ wrappersOf (shared ++ opened),
          ∃ other ∈ earlier ++ [⟨shared ++ opened, inner, content⟩], .opened v ∈ other.fates := by
        intro v hv
        rw [wrappersOf_append] at hv
        rcases List.mem_append.mp hv with hv | hv
        · obtain ⟨other, ho, hopen⟩ := hc v (hpre.subset hv)
          exact ⟨other, List.mem_append_left _ ho, hopen⟩
        · refine ⟨_, List.mem_append_right _ (List.mem_singleton.mpr rfl), ?_⟩
          obtain ⟨fate, hf, hwrap⟩ := List.mem_filterMap.mp hv
          refine List.mem_append_right _ ?_
          cases fate with
          | shared mark' v' => exact absurd hf (marks.not_shared mark' v')
          | opened v' => exact Option.some.inj hwrap ▸ hf
          | passed | dropped => cases hwrap
      have h := ih _ hnext htail
      rwa [List.append_assoc] at h

/-- All wrappers of a node were opened for it or for an earlier sibling. -/
theorem NodesReported.chain_opened {σ η : Type} [TreeBuilder σ η] {table : TemplateTable}
    {policy : MarkPolicy} {target : η} {nodes : List Node} {state after : Guarded σ}
    {reports : List (Report σ η)}
    (h : NodesReported table policy target [] nodes state reports after) {report : Report σ η}
    (hr : report ∈ reports) {w : Wrapper σ η} (hw : w ∈ report.chain) :
    w ∈ wrappersIn reports := by
  obtain ⟨fate, hf, hwrap⟩ := List.mem_filterMap.mp hw
  cases fate with
  | shared mark v =>
    obtain rfl := Option.some.inj hwrap
    obtain ⟨first, last, rfl⟩ := List.append_of_mem hr
    obtain ⟨other, ho, hopen⟩ := h.shared_opened [] (List.forall_mem_nil _) rfl hf
    exact mem_wrappersIn (List.mem_append_left _ ho) hopen
  | opened v =>
    obtain rfl := Option.some.inj hwrap
    exact mem_wrappersIn hr hf
  | passed | dropped => cases hwrap

/-- The node that takes a fragment is the target or new, and nothing hangs on a new one. -/
theorem containerOf_grows {target : Option Nat} {state start : Guarded Script} {node : Nat}
    (h : containerOf target state = (.ok node, start))
    (ht : ∀ node ∈ target, node ≤ state.tree.count) :
    Grows (fun x => target = some x) state.tree start.tree ∧ node ≤ start.tree.count ∧
      start.tree.count = max node state.tree.count ∧
      (target = some node ∨ state.tree.count < node) := by
  cases target with
  | none =>
    cases h
    refine ⟨.of_edges_eq (Nat.le_succ _) (edges_createFragment state.tree), ?_, ?_, ?_⟩
    · exact Nat.le_refl _
    · exact (Nat.max_eq_left (Nat.le_succ _)).symm
    · exact Or.inr (Nat.lt_succ_self _)
  | some target =>
    cases h
    exact ⟨.refl _ _, ht _ rfl, (Nat.max_eq_right (ht _ rfl)).symm, Or.inl rfl⟩

/-- Every node of a fragment ends up under its own marks. A run that succeeds gives each mark of
each node a fate: it has no template, it has a wrapper, or its template failed. From the target on
down to the inner rendering of the node hang exactly the wrappers, in the order of the marks, and
each of them was built for an equal mark of this node or of an earlier one. The inner renderings
follow each other in document order, and nothing of what failing templates built can be reached
from the target. -/
theorem serializeFragment_placed {table : TemplateTable} {policy : MarkPolicy}
    {fragment : Fragment} {target : Option Nat} {state after : Guarded Script} {root : Nat}
    (hc : state.tree.Closed) (ht : ∀ node ∈ target, node ≤ state.tree.count)
    (h : serializeFragment table policy fragment target state = (.ok root, after)) :
    ∃ reports, reportFragment table policy fragment target state = (.ok (root, reports), after) ∧
      Grows (fun x => target = some x) state.tree after.tree ∧
      List.Forall₂ (Placed table after.tree (max root state.tree.count) root) fragment reports ∧
      (∀ first report last, reports = first ++ report :: last → ∀ mark w,
        .shared mark w ∈ report.fates → ∃ other ∈ first, .opened w ∈ other.fates) ∧
      (∀ report ∈ reports, ∀ w ∈ wrappersIn reports,
        Reaches after.tree.edges w.root report.inner → w ∈ report.chain) ∧
      (reports.Pairwise fun first second =>
        Precedes after.tree.edges first.inner second.inner) ∧
      ∀ report ∈ reports, ∀ loss, report.Lost loss → ∀ lost, loss.1.tree.count < lost →
        lost ≤ loss.2.tree.count → ¬Reaches after.tree.edges root lost := by
  obtain ⟨reports, hr⟩ := exists_report h
  refine ⟨reports, hr, ?_⟩
  obtain ⟨node, start, hstart, hr⟩ := Building.bind_eq_ok.mp hr
  obtain ⟨others, t, hn, hp⟩ := Building.bind_eq_ok.mp hr
  cases hp
  have hn := nodesReported hn
  obtain ⟨hg, hle, hmax, hroot⟩ := containerOf_grows hstart ht
  have hclosed := hg.closed hc
  obtain ⟨hall, -, hpair⟩ := hn.placed (.start hclosed (Nat.le_of_eq hmax) hle)
  obtain ⟨hg', hl⟩ := hn.grows (fun node _ => innerMade table policy node) hclosed
    fun x hx => hx.eq_target ▸ hle
  refine ⟨hg.trans hg' fun x hx => hx.eq_target ▸ hroot, hall, ?_, ?_, hpair, ?_⟩
  · intro first report last hsplit mark w hw
    exact hn.shared_opened [] (List.forall_mem_nil _) hsplit hw
  · intro report hmem w hw hreach
    obtain ⟨htimely, hinner⟩ := hn.timely fun node _ => innerTimely table policy node
    obtain ⟨hfirst, hmade, -⟩ := htimely.within w hw
    have hnew : max root state.tree.count < w.root := hmax ▸ Nat.lt_of_le_of_lt hfirst hmade.1
    have habove : ∀ report ∈ reports, ∀ y, max root state.tree.count < y →
        Reaches after.tree.edges y report.inner → y = report.inner ∨ ∃ w ∈ report.chain, w.Made y :=
      ((List.forall₂_and_left (R := fun _ _ => True) _ _).mp
        (hall.flip.imp fun _ _ h => ⟨h.above, trivial⟩)).1
    rcases habove report hmem w.root hnew hreach with heq | ⟨v, hv, hmade'⟩
    · exact absurd (heq ▸ hmade) ((hinner report hmem).2.2 w hw)
    · rw [htimely.eq_of_made hw (hn.chain_opened hmem hv) hmade hmade']
      exact hv
  · intro report hmem loss hlost lost hfirst hlast
    exact (hl report hmem loss hlost).not_reaches hle hfirst hlast

set_option maxRecDepth 10000 in
/-- Two texts in a new container. The first has one of two marks lost, and the second goes on in the
wrapper of the other. -/
theorem serializeFragment_placed_sample :
    ∃ reports after, (serializeFragment sampleTable .lenient sampleBroken none :
        Guarding Script Nat) ⟨.empty, .empty⟩ = (.ok 1, after) ∧
      List.Forall₂ (Placed sampleTable after.tree 1 1) sampleBroken reports ∧
      (reports.map fun report => (report.chain.length, report.losses.length)) =
        [(1, 1), (2, 0)] := by
  have h : (serializeFragment sampleTable .lenient sampleBroken none : Guarding Script Nat)
      ⟨.empty, .empty⟩ = (.ok 1, (serializeFragment sampleTable .lenient sampleBroken none
        ⟨.empty, .empty⟩).2) := Prod.ext rfl rfl
  obtain ⟨reports, hr, -, hall, -⟩ := serializeFragment_placed closed_empty
    (fun _ hn => by cases hn) h
  have hl : ((reportFragment sampleTable .lenient sampleBroken none
      (⟨.empty, .empty⟩ : Guarded Script)).1.toOption.map fun result =>
        result.2.map fun report => (report.chain.length, report.losses.length)) =
      some [(1, 1), (2, 0)] := rfl
  rw [hr] at hl
  exact ⟨reports, _, h, hall, Option.some.inj hl⟩

end RichDoc
