import RichDoc.Proofs.Build.Embodiment
import RichDoc.Proofs.Dom.Above
import RichDoc.Proofs.Serializer.Losses
import RichDoc.Proofs.Serializer.Policies

/-!
# One node by itself

A node can be serialized as it is, or as the only one of a fragment. The first way builds its
content and then the wrappers from the inside out; the second way opens the wrappers from the
outside in, hangs each of them before anything is inside, and builds the content last. Neither
reads anything back, so each wrapper and the content are the same trees both times, and they are put
into each other in the same way.
-/

namespace RichDoc

open Script

variable {σ η τ θ α β : Type} {pool : Pool}

/-! ### Work that always succeeds -/

/-- Work that succeeds wherever the guard keeps nothing wrong, and leaves such a guard. -/
def Guarding.Surely (pool : Pool) (work : Guarding σ α) : Prop :=
  ∀ state, state.guard.Faithful pool →
    ∃ a after, work state = (.ok a, after) ∧ after.guard.Faithful pool

namespace Guarding.Surely

theorem pure (a : α) : (Pure.pure a : Guarding σ α).Surely pool := fun state hg =>
  ⟨a, state, rfl, hg⟩

theorem bind {work : Guarding σ α} {next : α → Guarding σ β} (h : work.Surely pool)
    (hn : ∀ a, (next a).Surely pool) : Surely pool (work >>= next) := by
  intro state hg
  obtain ⟨a, t, hw, hg'⟩ := h state hg
  obtain ⟨b, after, hrest, hg''⟩ := hn a t hg'
  exact ⟨b, after, (Building.bind_apply_ok hw next).trans hrest, hg''⟩

theorem faithful {work : Guarding σ α} (h : work.Surely pool) {state after : Guarded σ} {a : α}
    (hg : state.guard.Faithful pool) (hw : work state = (.ok a, after)) :
    after.guard.Faithful pool := by
  obtain ⟨_, t, hrun, hg'⟩ := h state hg
  rw [hw] at hrun
  obtain ⟨-, rfl⟩ := Prod.mk.inj hrun
  exact hg'

end Guarding.Surely

variable [TreeBuilder σ η] [TreeBuilder τ θ]

theorem surely_appendTo (parent child : η) :
    (appendTo parent child : Guarding σ Unit).Surely pool := fun _ hg => ⟨(), _, rfl, hg⟩

/-- Work that runs alongside itself, whatever was built before, succeeds everywhere or nowhere. -/
theorem surely_of_alongside {R : Guarded σ → Guarded τ → α → β → Prop} {work : Guarding σ α}
    {other : Guarding τ β} {state after : Guarded σ} {a : α} (hw : work state = (.ok a, after))
    (h : ∀ t, t.guard.Faithful pool →
      (Pairing.anything.guarded (.faithful pool)).Alongside R work other state t) :
    other.Surely pool := by
  intro t hg
  obtain ⟨b, t', ho, hlater, -⟩ := (h t hg).ok_right hw
  exact ⟨b, t', ho, hlater.states.2.2⟩

/-- The wrapper of a mark can be built on a node, if its type has a template. -/
def MarkRenders (pool : Pool) (table : TemplateTable) (node : Node) (mark : Mark) : Prop :=
  ∀ {σ η : Type} [TreeBuilder σ η],
    (renderMark table mark node : Guarding σ (Option (Rendered η))).Surely pool

/-- A node can be built. -/
def NodeRenders (pool : Pool) (table : TemplateTable) (policy : MarkPolicy) (node : Node) : Prop :=
  ∀ {σ η : Type} [TreeBuilder σ η], (renderNode table policy node : Guarding σ η).Surely pool

variable {table : TemplateTable} {policy : MarkPolicy} {node : Node} {mark : Mark}
  {state after : Guarded σ}

/-- A wrapper that can be built once can be built everywhere. -/
theorem markRenders_of_ok (hm : pool.has mark.attrs) (hn : pool.has node.attrs)
    (hg : state.guard.Faithful pool) {result : Option (Rendered η)}
    (h : renderMark table mark node state = (.ok result, after)) :
    MarkRenders pool table node mark :=
  surely_of_alongside h fun _ hg' =>
    Pairing.anything.renderMark (g := .faithful pool) ⟨trivial, hg, hg'⟩ table hm hn

/-- A node that can be built once can be built everywhere. -/
theorem nodeRenders_of_ok (hm : node.Maps pool.has) (hg : state.guard.Faithful pool) {root : η}
    (h : renderNode table policy node state = (.ok root, after)) :
    NodeRenders pool table policy node :=
  surely_of_alongside h fun _ hg' =>
    Pairing.anything.renderNode (g := .faithful pool) table policy node hm ⟨trivial, hg, hg'⟩

/-! ### When the two ways succeed -/

/-- Wrapping succeeds if every wrapper can be built. -/
theorem surely_wrapMarks {marks : List Mark} (h : ∀ mark ∈ marks, MarkRenders pool table node mark)
    (inner : η) : (wrapMarks table node marks inner : Guarding σ η).Surely pool := by
  induction marks with
  | nil => exact .pure inner
  | cons mark rest ih =>
    obtain ⟨hmark, hrest⟩ := List.forall_mem_cons.mp h
    rw [wrapMarks]
    refine (ih hrest).bind fun inner => hmark.bind fun wrapper => ?_
    cases wrapper with
    | none => exact .pure inner
    | some wrapper => exact (surely_appendTo _ _).bind fun _ => .pure _

/-- Every wrapper can be built if wrapping succeeds once. -/
theorem markRenders_of_wrapMarks (hn : pool.has node.attrs) {marks : List Mark}
    (hm : ∀ mark ∈ marks, pool.has mark.attrs) (hg : state.guard.Faithful pool) {inner root : η}
    (h : wrapMarks table node marks inner state = (.ok root, after)) :
    after.guard.Faithful pool ∧ ∀ mark ∈ marks, MarkRenders pool table node mark := by
  induction marks generalizing root after with
  | nil =>
    cases h
    exact ⟨hg, List.forall_mem_nil _⟩
  | cons mark rest ih =>
    obtain ⟨hfirst, hothers⟩ := List.forall_mem_cons.mp hm
    rw [wrapMarks] at h
    obtain ⟨wrapped, t, hrest, h⟩ := Building.bind_eq_ok.mp h
    obtain ⟨wrapper, t', hmark, h⟩ := Building.bind_eq_ok.mp h
    obtain ⟨hg', hall⟩ := ih hothers hrest
    have hafter : after.guard = t'.guard := by
      cases wrapper with
      | none =>
        cases h
        rfl
      | some wrapper =>
        obtain ⟨_, _, happend, h⟩ := Building.bind_eq_ok.mp h
        cases happend
        cases h
        rfl
    have hbuilt := Guarding.StaysFaithful.of_run (.renderMark _ hfirst hn) hg' hmark
    exact ⟨hafter ▸ hbuilt,
      List.forall_mem_cons.mpr ⟨markRenders_of_ok hfirst hn hg' hmark, hall⟩⟩

/-- A node is serialized if it and all of its wrappers can be built. -/
theorem serializeNode_ok_iff (hm : node.Maps pool.has) (hg : state.guard.Faithful pool) :
    (∃ (root : η) (after : Guarded σ), serializeNode table policy node state = (.ok root, after)) ↔
      NodeRenders pool table policy node ∧
        ∀ mark ∈ node.marks, MarkRenders pool table node mark := by
  constructor
  · rintro ⟨root, after, h⟩
    obtain ⟨inner, t, hnode, h⟩ := Building.bind_eq_ok.mp h
    have hrenders : NodeRenders pool table policy node := nodeRenders_of_ok hm hg hnode
    have hbuilt := Guarding.Surely.faithful hrenders hg hnode
    exact ⟨hrenders, (markRenders_of_wrapMarks hm.attrs (fun _ hmark => hm.marks hmark) hbuilt h).2⟩
  · rintro ⟨hnode, hmarks⟩
    have hsurely : (serializeNode table policy node : Guarding σ η).Surely pool :=
      hnode.bind fun inner => surely_wrapMarks hmarks inner
    obtain ⟨root, after, h, -⟩ := hsurely state hg
    exact ⟨root, after, h⟩

/-- Opening wrappers succeeds if failures are passed over or every wrapper can be built. -/
theorem surely_openMarks (hn : pool.has node.attrs) {marks : List Mark}
    (hm : ∀ mark ∈ marks, pool.has mark.attrs)
    (h : policy = .lenient ∨ ∀ mark ∈ marks, MarkRenders pool table node mark)
    (opened : OpenMarks η) :
    (openMarks table policy node marks opened : Guarding σ (OpenMarks η)).Surely pool := by
  induction marks generalizing opened with
  | nil => exact .pure opened
  | cons mark rest ih =>
    obtain ⟨hfirst, hothers⟩ := List.forall_mem_cons.mp hm
    have hrest := fun opened =>
      ih hothers (h.imp_right fun hall => (List.forall_mem_cons.mp hall).2) opened
    intro state hg
    rw [openMarks, Building.bind_apply_ok (attempt_apply _ _)]
    rcases hmark : (renderMark table mark node : Guarding σ (Option (Rendered η))) state with
      ⟨error | wrapper, t⟩
    · rcases h with rfl | hall
      · exact hrest opened t (Guarding.StaysFaithful.of_run (.renderMark _ hfirst hn) hg hmark)
      · obtain ⟨_, _, hok, -⟩ := (List.forall_mem_cons.mp hall).1 (η := η) state hg
        rw [hmark] at hok
        cases hok
    · have hg' := Guarding.StaysFaithful.of_run (.renderMark _ hfirst hn) hg hmark
      cases wrapper with
      | none => exact hrest opened t hg'
      | some wrapper => exact (surely_appendTo _ _).bind (fun _ => hrest _) t hg'

/-- Under the strict policy every wrapper can be built if opening them succeeds once. -/
theorem markRenders_of_openMarks (hn : pool.has node.attrs) {marks : List Mark}
    (hm : ∀ mark ∈ marks, pool.has mark.attrs) (hg : state.guard.Faithful pool)
    {opened result : OpenMarks η}
    (h : openMarks table .strict node marks opened state = (.ok result, after)) :
    ∀ mark ∈ marks, MarkRenders pool table node mark := by
  induction marks generalizing opened state with
  | nil => exact List.forall_mem_nil _
  | cons mark rest ih =>
    obtain ⟨hfirst, hothers⟩ := List.forall_mem_cons.mp hm
    rw [openMarks, Building.bind_apply_ok (attempt_apply _ _)] at h
    rcases hmark : (renderMark table mark node : Guarding σ (Option (Rendered η))) state with
      ⟨error | wrapper, t⟩
    · have hstops : MarkPolicy.strict.stopsAt error = true := isTemplateError_of_renderMark hmark
      simp only [hmark, hstops, ite_true] at h
      cases h
    · have hg' := Guarding.StaysFaithful.of_run (.renderMark _ hfirst hn) hg hmark
      refine List.forall_mem_cons.mpr ⟨markRenders_of_ok hfirst hn hg hmark, ?_⟩
      cases wrapper with
      | none =>
        simp only [hmark] at h
        exact ih hothers hg' h
      | some wrapper =>
        simp only [hmark] at h
        rw [Building.bind_apply_ok (appendTo_apply _ _ _)] at h
        have hin : (t.appended opened.top wrapper.root).guard.Faithful pool := hg'
        exact ih hothers hin h

/-- The fragment of one node: its wrappers are opened in a container, and the node is appended to
the innermost place. -/
theorem serializeFragment_single (table : TemplateTable) (policy : MarkPolicy) (node : Node) :
    (serializeFragment table policy [node] none : Guarding σ η) = do
      let container ← containerOf none
      let opened ← openMarks table policy node node.marks ⟨[], container⟩
      let inner ← renderNode table policy node
      appendTo opened.top inner
      return container := by
  have hnone : agreeing table ([] : List (OpenMark η)) node.marks = ([], [], node.marks) := by
    cases node.marks <;> rfl
  rw [serializeFragment_eq]
  congr 1
  funext container
  rw [serializeNodes]
  dsimp only [openedIn, openList, placeIn]
  rw [hnone]
  simp only [closing, serializeNodes, bind_assoc, pure_bind]

/-- A fragment of one node is serialized if the node can be built, and its wrappers too unless their
failures are passed over. -/
theorem serializeFragment_single_ok (hm : node.Maps pool.has)
    (hnode : NodeRenders pool table policy node)
    (hmarks : policy = .lenient ∨ ∀ mark ∈ node.marks, MarkRenders pool table node mark)
    (hg : state.guard.Faithful pool) :
    ∃ (root : η) (after : Guarded σ),
      serializeFragment table policy [node] none state = (.ok root, after) := by
  have hcontainer : (containerOf none : Guarding σ η).Surely pool := fun _ hg => ⟨_, _, rfl, hg⟩
  have hsurely : (serializeFragment table policy [node] none : Guarding σ η).Surely pool := by
    rw [serializeFragment_single]
    exact hcontainer.bind fun container =>
      (surely_openMarks hm.attrs (fun _ hmark => hm.marks hmark) hmarks _).bind fun opened =>
        hnode.bind fun inner => (surely_appendTo _ _).bind fun _ => .pure _
  obtain ⟨root, after, h, -⟩ := hsurely state hg
  exact ⟨root, after, h⟩

/-- Under the strict policy a fragment of one node is serialized only if the node and its wrappers
can be built. -/
theorem renders_of_serializeFragment (hm : node.Maps pool.has) (hg : state.guard.Faithful pool)
    {root : η}
    (h : serializeFragment table .strict [node] none state = (.ok root, after)) :
    NodeRenders pool table .strict node ∧
      ∀ mark ∈ node.marks, MarkRenders pool table node mark := by
  rw [serializeFragment_single] at h
  obtain ⟨container, start, hstart, h⟩ := Building.bind_eq_ok.mp h
  obtain ⟨opened, inside, hopened, h⟩ := Building.bind_eq_ok.mp h
  obtain ⟨inner, built, hnode, -⟩ := Building.bind_eq_ok.mp h
  have hg₁ : start.guard.Faithful pool := by
    cases hstart
    exact hg
  have hmarks : ∀ mark ∈ node.marks, pool.has mark.attrs := fun _ hmark => hm.marks hmark
  have hg₂ := Guarding.StaysFaithful.of_run (.openMarks _ _ hm.attrs hmarks _) hg₁ hopened
  exact ⟨nodeRenders_of_ok hm hg₂ hnode, markRenders_of_openMarks hm.attrs hmarks hg₁ hopened⟩

/-! ### What is built in a store -/

/-- The wrapper of a mark around a node is a tree of one outline in every store, with the place for
what it wraps as the hole. -/
def Frames (pool : Pool) (table : TemplateTable) (node : Node) (mark : Mark)
    (outline : Outline) : Prop :=
  ∀ state : Guarded Dom, state.tree.WellFormed → state.guard.Faithful pool →
    ∃ rendered after, renderMark table mark node state = (.ok (some rendered), after) ∧
      after.guard.Faithful pool ∧
      Dom.Makes state.tree after.tree
        ⟨rendered.root, some (rendered.hole.getD rendered.root)⟩ outline

/-- A node is a tree of one outline in every store. -/
def Shapes (pool : Pool) (table : TemplateTable) (policy : MarkPolicy) (node : Node)
    (outline : Outline) : Prop :=
  ∀ state : Guarded Dom, state.tree.WellFormed → state.guard.Faithful pool →
    ∃ root after, renderNode table policy node state = (.ok root, after) ∧
      after.guard.Faithful pool ∧ Dom.Makes state.tree after.tree ⟨root, none⟩ outline

/-- Work on the empty script and work alongside it in a store end in the same way, and what was
built in the store is the tree of what the script has become. -/
theorem embodies_of_alongside {g : GuardPairing} {R : Guarded Script → Guarded Dom → α → β → Prop}
    {work : Guarding Script α} {other : Guarding Dom β} {guard : Guard} {first : Except Error α}
    {final : Guarded Script} (hscript : work ⟨guard, .empty⟩ = (first, final))
    (hf : final.tree.Orderly) {state : Guarded Dom} (hw : state.tree.WellFormed)
    (hg : g.related guard state.guard)
    (h : ((embodying hf state.tree).guarded g).states ⟨guard, .empty⟩ state →
      ((embodying hf state.tree).guarded g).Alongside R work other ⟨guard, .empty⟩ state) :
    Dom.Embodies state.tree final.tree (other state).2.tree ∧
      g.related final.guard (other state).2.guard ∧
      Outcomes (R final (other state).2) first (other state).1 := by
  obtain ⟨hlater, hout⟩ := h ⟨embodied_empty _ hw, hg⟩
  rw [hscript] at hlater hout
  obtain ⟨⟨-, hbuilt⟩, hg'⟩ := hlater.states
  exact ⟨hbuilt (List.prefix_refl _), hg', hout⟩

/-- Work that succeeds on the empty script succeeds in every store, where it builds the tree of what
the script has become. -/
theorem exists_embodied {R : Guarded Script → Guarded Dom → α → β → Prop}
    {work : Guarding Script α} {other : Guarding Dom β} {a : α} {final : Guarded Script}
    (hscript : work ⟨.empty, .empty⟩ = (.ok a, final)) (hf : final.tree.Orderly)
    {state : Guarded Dom} (hw : state.tree.WellFormed) (hg : state.guard.Faithful pool)
    (h : ((embodying hf state.tree).guarded (.faithful pool)).states ⟨.empty, .empty⟩ state →
      ((embodying hf state.tree).guarded (.faithful pool)).Alongside R work other
        ⟨.empty, .empty⟩ state) :
    ∃ b after, other state = (.ok b, after) ∧ after.guard.Faithful pool ∧
      Dom.Embodies state.tree final.tree after.tree ∧ R final after a b := by
  have hrelated : (GuardPairing.faithful pool).related .empty state.guard :=
    ⟨Guard.Reachable.empty.faithful, hg⟩
  obtain ⟨hbuilt, ⟨-, hg'⟩, hout⟩ := embodies_of_alongside hscript hf hw hrelated h
  rcases hrun : other state with ⟨second, after⟩
  rw [hrun] at hbuilt hg' hout
  cases hout with
  | ok hr => exact ⟨_, after, rfl, hg', hbuilt, hr⟩

/-- A wrapper that a script makes is a tree of one outline in every store. -/
theorem Script.Makes.exists_outline (mark : Mark) {g : GuardPairing} {final : Guarded Script}
    {wrapper : Rendered Nat} (h : Script.Makes .empty (.ok wrapper) final.tree) :
    ∃ outline, ∀ {start : Dom} {after : Guarded Dom} {rendered : Rendered NodeId},
      Dom.Embodies start final.tree after.tree →
      ((embodying h.1.orderly start).guarded g).Rendering final after wrapper rendered →
      Dom.Makes start after.tree
        ⟨rendered.root, some (rendered.hole.getD rendered.root)⟩ outline := by
  obtain ⟨hpos, hroot, -⟩ := h.2 wrapper rfl
  have hstart : Script.Makes (⟨.empty, .empty⟩ : Guarded Script).tree (.ok wrapper) final.tree := h
  obtain ⟨-, hnew, hle⟩ := hstart.place mark
  obtain ⟨place, hplace⟩ := Nat.exists_eq_succ_of_ne_zero (Nat.ne_of_gt hnew)
  obtain ⟨outline, hmakes⟩ := Dom.Embodies.exists_makes hpos (some place) fun x hx => by
    obtain rfl := Option.some.inj hx
    exact Nat.lt_of_succ_le (hplace ▸ hle)
  refine ⟨outline, fun {start after rendered} hbuilt hr => ?_⟩
  obtain ⟨k, -, hfirst, hroot'⟩ := hr.root
  obtain ⟨j, -, hsecond, hplace'⟩ := (embodying h.1.orderly start).place hr
  obtain rfl : k = 0 := (Nat.succ.inj (hroot.symm.trans hfirst)).symm
  obtain rfl : j = place := (Nat.succ.inj (hplace.symm.trans hsecond)).symm
  rw [hplace', hroot']
  exact hmakes hbuilt

/-- What a script makes below its first node is a tree of one outline in every store. -/
theorem exists_outline_of_first {g : GuardPairing} {final : Guarded Script}
    (hf : final.tree.Orderly) (hpos : 0 < final.tree.count) {first : Nat}
    (hfirst : first = Script.empty.count + 1) :
    ∃ outline, ∀ {start : Dom} {after : Guarded Dom} {root : NodeId},
      Dom.Embodies start final.tree after.tree →
      ((embodying hf start).guarded g).nodes final after first root →
      Dom.Makes start after.tree ⟨root, none⟩ outline := by
  obtain ⟨outline, hmakes⟩ := Dom.Embodies.exists_makes hpos none nofun
  refine ⟨outline, fun {start after root} hbuilt ⟨k, _, hk, hroot⟩ => ?_⟩
  obtain rfl : k = 0 := (Nat.succ.inj (hfirst.symm.trans hk)).symm
  rw [hroot]
  exact hmakes hbuilt

/-- A wrapper that can be built has an outline. -/
theorem MarkRenders.exists_frames (h : MarkRenders pool table node mark)
    (ha : pool.has mark.attrs) (hn : pool.has node.attrs)
    (hm : table.hasMark mark.typeName = true) : ∃ outline, Frames pool table node mark outline := by
  obtain ⟨result, final, hscript, -⟩ :=
    h (σ := Script) ⟨.empty, .empty⟩ Guard.Reachable.empty.faithful
  obtain ⟨wrapper, rfl⟩ : ∃ wrapper, result = some wrapper := by
    refine Option.ne_none_iff_exists'.mp fun hnone => ?_
    rw [hnone] at hscript
    exact renderMark_ne_none hm _ _ _ hscript
  have hmade := makes_of_renderMark hscript
  obtain ⟨outline, hmakes⟩ := Script.Makes.exists_outline mark hmade
  refine ⟨outline, fun state hw hg => ?_⟩
  obtain ⟨result, after, hrun, hg', hbuilt, hr⟩ :=
    exists_embodied hscript hmade.1.orderly hw hg
      fun hs => (embodying hmade.1.orderly state.tree).renderMark hs table ha hn
  cases hr with
  | @some _ rendered hr => exact ⟨rendered, after, hrun, hg', hmakes hbuilt hr⟩

/-- A node that can be built has an outline. -/
theorem NodeRenders.exists_shapes (h : NodeRenders pool table policy node)
    (hm : node.Maps pool.has) :
    ∃ outline, Shapes pool table policy node outline := by
  obtain ⟨root, final, hscript, -⟩ :=
    h (σ := Script) ⟨.empty, .empty⟩ Guard.Reachable.empty.faithful
  obtain ⟨result, hreport, rfl⟩ := Building.map_eq_ok.mp
    (renderNode_eq_report (σ := Script) table policy node ▸ hscript)
  obtain ⟨hgrows, hpos, hroot, -⟩ := innerMade table policy node hreport closed_empty
  obtain ⟨outline, hmakes⟩ := exists_outline_of_first hgrows.orderly hpos hroot
  refine ⟨outline, fun state hw hg => ?_⟩
  obtain ⟨root, after, hrun, hg', hbuilt, hr⟩ := exists_embodied hscript hgrows.orderly hw hg
    fun hs => (embodying hgrows.orderly state.tree).renderNode table policy node hm hs
  exact ⟨root, after, hrun, hg', hmakes hbuilt hr⟩

/-- The outline of what is inside the wrappers of marks, those that have a template. -/
def enclosed (table : TemplateTable) (frame : Mark → Outline) (marks : List Mark)
    (content : Outline) : Outline :=
  marks.foldr (fun mark inner =>
    if table.hasMark mark.typeName then (frame mark).fill [inner] else inner) content

section

variable {frame : Mark → Outline} {content : Outline}

/-- Wrapping from the inside out. -/
theorem wrapMarks_encloses {marks : List Mark}
    (hframe : ∀ mark ∈ marks, table.hasMark mark.typeName = true →
      Frames pool table node mark (frame mark)) {start : Dom} {state after : Guarded Dom}
    (hg : state.guard.Faithful pool) {inner root : NodeId}
    (hm : Dom.Makes start state.tree ⟨inner, none⟩ content)
    (h : wrapMarks table node marks inner state = (.ok root, after)) :
    after.guard.Faithful pool ∧
      Dom.Makes start after.tree ⟨root, none⟩ (enclosed table frame marks content) := by
  induction marks generalizing root after with
  | nil =>
    cases h
    exact ⟨hg, hm⟩
  | cons mark rest ih =>
    obtain ⟨hmark, hrest⟩ := List.forall_mem_cons.mp hframe
    rw [wrapMarks] at h
    obtain ⟨wrapped, t, hwrap, h⟩ := Building.bind_eq_ok.mp h
    obtain ⟨hg', hmade⟩ := ih hrest hwrap
    rw [enclosed, List.foldr_cons]
    by_cases hknown : table.hasMark mark.typeName = true
    · obtain ⟨wrapper, t', hrun, hg'', hmakes⟩ := hmark hknown t hmade.grows.after hg'
      rw [Building.bind_apply_ok hrun] at h
      dsimp only at h
      rw [Building.bind_apply_ok (appendTo_apply _ _ _)] at h
      cases h
      rw [if_pos hknown]
      exact ⟨hg'', hmade.wrap hmakes⟩
    · have hunknown := Bool.eq_false_iff.mpr hknown
      rw [Building.bind_apply_ok (renderMark_of_not_hasMark hunknown node t)] at h
      cases h
      rw [if_neg hknown]
      exact ⟨hg', hmade⟩

/-- Opening wrappers from the outside in: what is appended to the innermost place afterwards comes
to stand inside all of them. -/
theorem openMarks_encloses {marks : List Mark}
    (hframe : ∀ mark ∈ marks, table.hasMark mark.typeName = true →
      Frames pool table node mark (frame mark)) {state inside : Guarded Dom}
    (hw : state.tree.WellFormed) (hg : state.guard.Faithful pool) {opened result : OpenMarks NodeId}
    (htop : opened.top < state.tree.size)
    (h : openMarks table policy node marks opened state = (.ok result, inside)) :
    inside.tree.WellFormed ∧ inside.guard.Faithful pool ∧
      ∀ {built : Dom} {inner : NodeId}, Dom.Makes inside.tree built ⟨inner, none⟩ content →
        Dom.Fills opened.top state.tree (built.append (some result.top) (some inner)) none
          [enclosed table frame marks content] := by
  induction marks generalizing opened state with
  | nil =>
    cases h
    exact ⟨hw, hg, fun hm => hm.hang htop⟩
  | cons mark rest ih =>
    obtain ⟨hmark, hrest⟩ := List.forall_mem_cons.mp hframe
    rw [openMarks, Building.bind_apply_ok (attempt_apply _ _)] at h
    rw [enclosed, List.foldr_cons]
    by_cases hknown : table.hasMark mark.typeName = true
    · obtain ⟨wrapper, t, hrun, hg', hmakes⟩ := hmark hknown state hw hg
      simp only [hrun] at h
      rw [Building.bind_apply_ok (appendTo_apply _ _ _)] at h
      have hhang := hmakes.hang htop
      have hin : (t.appended opened.top wrapper.root).guard.Faithful pool := hg'
      obtain ⟨hw', hg'', hfills⟩ := ih hrest hhang.grows.after hin (hhang.hole_new _ rfl).2 h
      rw [if_pos hknown]
      refine ⟨hw', hg'', fun hm => ?_⟩
      have hfilled := hhang.fill (hfills hm) htop
      rwa [Outline.fillAll_eq_map] at hfilled
    · have hunknown := Bool.eq_false_iff.mpr hknown
      simp only [renderMark_of_not_hasMark hunknown node state] at h
      rw [if_neg hknown]
      exact ih hrest hw hg htop h

end

/-! ### Both ways -/

section

variable {frame : Mark → Outline} {content : Outline} {state after : Guarded Dom}

/-- A node by itself is its content inside its wrappers. -/
theorem serializeNode_makes
    (hframe : ∀ mark ∈ node.marks, table.hasMark mark.typeName = true →
      Frames pool table node mark (frame mark)) (hcontent : Shapes pool table policy node content)
    (hw : state.tree.WellFormed) (hg : state.guard.Faithful pool) {root : NodeId}
    (h : serializeNode table policy node state = (.ok root, after)) :
    Dom.Makes state.tree after.tree ⟨root, none⟩ (enclosed table frame node.marks content) := by
  obtain ⟨inner, t, hrun, hg', hmakes⟩ := hcontent state hw hg
  rw [serializeNode, Building.bind_apply_ok hrun] at h
  exact (wrapMarks_encloses hframe hg' hmakes h).2

/-- A fragment of one node fills its container with the content inside the wrappers. -/
theorem serializeFragment_single_fills
    (hframe : ∀ mark ∈ node.marks, table.hasMark mark.typeName = true →
      Frames pool table node mark (frame mark)) (hcontent : Shapes pool table policy node content)
    (hw : state.tree.WellFormed) (hg : state.guard.Faithful pool) {container : NodeId}
    (h : serializeFragment table policy [node] none state = (.ok container, after)) :
    after.tree.WellFormed ∧ ∃ child, after.tree.children (some container) = [child] ∧
      (after.tree.tree (some child)).outline none = enclosed table frame node.marks content := by
  rw [serializeFragment_single, Building.bind_apply_ok (rfl : containerOf none state = _)] at h
  have hnew := Dom.makes_create hw .document
  obtain ⟨opened, inside, hopened, h⟩ := Building.bind_eq_ok.mp h
  have hstart : (⟨state.guard, (state.tree.create .document).2⟩ : Guarded Dom).guard.Faithful
      pool := hg
  have htop : (⟨[], state.tree.size⟩ : OpenMarks NodeId).top <
      (state.tree.create .document).2.size := hnew.root_new.2
  obtain ⟨hw', hg', hfills⟩ := openMarks_encloses hframe hnew.grows.after hstart htop hopened
  obtain ⟨inner, built, hrun, -, hmakes⟩ := hcontent inside hw' hg'
  have hfilled := hfills hmakes
  rw [Building.bind_apply_ok hrun, Building.bind_apply_ok (appendTo_apply _ _ _)] at h
  cases h
  obtain ⟨kids, hkids, houtlines⟩ := hfilled.children
  rw [hnew.data?_eq.2, List.nil_append] at hkids
  obtain ⟨child, rfl, hchild⟩ := List.map_eq_singleton_iff.mp houtlines
  exact ⟨hfilled.grows.after, child, hkids, hchild⟩

end

/-- Work that runs alongside itself above every store does the same above a new one. -/
theorem exists_above {work : Guarding Dom NodeId} {state after : Guarded Dom} {root : NodeId}
    (hg : state.guard.Faithful pool) (h : work state = (.ok root, after))
    (ha : ((Dom.above state.tree.size).guarded (.faithful pool)).states ⟨state.guard, ⟨#[]⟩⟩ state →
      ((Dom.above state.tree.size).guarded (.faithful pool)).Alongside
        ((Dom.above state.tree.size).guarded (.faithful pool)).nodes work work
        ⟨state.guard, ⟨#[]⟩⟩ state) :
    ∃ first built, work ⟨state.guard, ⟨#[]⟩⟩ = (.ok first, built) ∧
      root = state.tree.size + first ∧ Dom.Above state.tree.size built.tree after.tree := by
  obtain ⟨first, built, hrun, hlater, hr⟩ := (ha ⟨.start _, hg, hg⟩).ok_left h
  exact ⟨first, built, hrun, hr, hlater.states.1⟩

/-- A node that can be built inside its wrappers has one outline, and both ways build it if they
succeed, in whatever store. -/
theorem exists_outline (hm : node.Maps pool.has) (hnode : NodeRenders pool table policy node)
    (hmarks : ∀ mark ∈ node.marks, MarkRenders pool table node mark) :
    ∃ outline,
      (∀ (state after : Guarded Dom) (root : NodeId), state.guard.Faithful pool →
        serializeNode table policy node state = (.ok root, after) →
        (after.tree.tree (some root)).outline none = outline) ∧
      ∀ (state after : Guarded Dom) (container : NodeId), state.guard.Faithful pool →
        serializeFragment table policy [node] none state = (.ok container, after) →
        ∃ child, after.tree.children (some container) = [child] ∧
          (after.tree.tree (some child)).outline none = outline := by
  have hall : ∀ mark, ∃ outline, mark ∈ node.marks → table.hasMark mark.typeName = true →
      Frames pool table node mark outline := by
    intro mark
    by_cases hmem : mark ∈ node.marks ∧ table.hasMark mark.typeName = true
    · obtain ⟨outline, hframes⟩ :=
        MarkRenders.exists_frames (hmarks mark hmem.1) (hm.marks hmem.1) hm.attrs hmem.2
      exact ⟨outline, fun _ _ => hframes⟩
    · exact ⟨.node .document false [], fun h h' => absurd ⟨h, h'⟩ hmem⟩
  choose frame hframe using hall
  obtain ⟨content, hcontent⟩ := NodeRenders.exists_shapes hnode hm
  refine ⟨enclosed table frame node.marks content, ?_, ?_⟩
  · intro state after root hg h
    obtain ⟨first, built, hrun, rfl, habove⟩ := exists_above hg h fun hs =>
      (Dom.above state.tree.size).serializeNode table policy hm hs
    have hnew : (⟨state.guard, ⟨#[]⟩⟩ : Guarded Dom).guard.Faithful pool := hg
    have hmakes := serializeNode_makes hframe hcontent Dom.wellFormed_nothing hnew hrun
    rw [habove.tree_eq hmakes.grows.after hmakes.root_new.2, Tree.outline_moved, hmakes.outline_eq]
  · intro state after container hg h
    obtain ⟨first, built, hrun, rfl, habove⟩ := exists_above hg h fun hs =>
      (Dom.above state.tree.size).serializeFragment table policy
        (List.forall_mem_singleton.mpr hm) hs .none
    have hnew : (⟨state.guard, ⟨#[]⟩⟩ : Guarded Dom).guard.Faithful pool := hg
    obtain ⟨hw, child, hchild, houtline⟩ :=
      serializeFragment_single_fills hframe hcontent Dom.wellFormed_nothing hnew hrun
    have hlt := hw.lt_size_of_mem_children (hchild ▸ List.mem_singleton.mpr rfl)
    refine ⟨state.tree.size + child, ?_, ?_⟩
    · rw [habove.children_eq hw, hchild, List.map_singleton]
    · rw [habove.tree_eq hw hlt, Tree.outline_moved, houtline]

/-- A node whose maps were made and the fragment of this node agree. Under the strict policy both
succeed or both fail, whatever is built; under the lenient policy the fragment succeeds if the node
does. When both succeed in a store, the container has one child, and the tree below it is the one
that was built for the node. -/
theorem serializeNode_agrees (table : TemplateTable) {node : Node} (hm : node.Maps pool.has) :
    (∀ (state : Guarded σ) (other : Guarded τ), state.guard.Reachable pool →
        other.guard.Reachable pool →
        ((∃ (root : η) (after : Guarded σ),
            serializeNode table .strict node state = (.ok root, after)) ↔
          ∃ (root : θ) (after : Guarded τ),
            serializeFragment table .strict [node] none other = (.ok root, after)) ∧
        ((∃ (root : η) (after : Guarded σ),
            serializeNode table .lenient node state = (.ok root, after)) →
          ∃ (root : θ) (after : Guarded τ),
            serializeFragment table .lenient [node] none other = (.ok root, after))) ∧
      ∀ (policy : MarkPolicy) (state other after after' : Guarded Dom) (root container : NodeId),
        state.guard.Reachable pool → other.guard.Reachable pool →
        serializeNode table policy node state = (.ok root, after) →
        serializeFragment table policy [node] none other = (.ok container, after') →
        ∃ child, after'.tree.children (some container) = [child] ∧
          (after'.tree.tree (some child)).outline none =
            (after.tree.tree (some root)).outline none := by
  constructor
  · intro state other hg hg'
    refine ⟨⟨fun h => ?_, fun ⟨root, after, h⟩ => ?_⟩, fun h => ?_⟩
    · obtain ⟨hnode, hmarks⟩ := (serializeNode_ok_iff hm hg.faithful).mp h
      exact serializeFragment_single_ok hm hnode (Or.inr hmarks) hg'.faithful
    · have hrenders := renders_of_serializeFragment hm hg'.faithful h
      exact (serializeNode_ok_iff hm hg.faithful).mpr hrenders
    · obtain ⟨hnode, -⟩ := (serializeNode_ok_iff hm hg.faithful).mp h
      exact serializeFragment_single_ok hm hnode (Or.inl rfl) hg'.faithful
  · intro policy state other after after' root container hg hg' h h'
    obtain ⟨hnode, hmarks⟩ := (serializeNode_ok_iff hm hg.faithful).mp ⟨root, after, h⟩
    obtain ⟨outline, halone, hsingle⟩ := exists_outline hm hnode hmarks
    obtain ⟨child, hchild, houtline⟩ := hsingle other after' container hg'.faithful h'
    exact ⟨child, hchild, houtline.trans (halone state after root hg.faithful h).symm⟩

set_option maxRecDepth 10000 in
/-- A text with two marks, on its own in a new store and alone in a fragment. -/
theorem serializeNode_agrees_sample :
    (∃ (after after' : Guarded Dom),
        serializeNode sampleTable .strict (sampleText "a" ["em", "strong"]) ⟨.empty, .empty⟩ =
            (.ok 3, after) ∧
          serializeFragment sampleTable .strict [sampleText "a" ["em", "strong"]] none
            ⟨.empty, .empty⟩ = (.ok 1, after') ∧
          ∃ child, after'.tree.children (some 1) = [child] ∧
            (after'.tree.tree (some child)).outline none =
              (after.tree.tree (some 3)).outline none) ∧
      ∃ (root : Nat) (after : Guarded Script),
        serializeFragment sampleTable .lenient [sampleText "a" ["em", "strong"]] none
          ⟨.empty, .empty⟩ = (.ok root, after) := by
  have hnode : ∀ policy, (serializeNode sampleTable policy (sampleText "a" ["em", "strong"]) :
      Guarding Dom NodeId) ⟨.empty, .empty⟩ = (.ok 3, (serializeNode sampleTable policy
        (sampleText "a" ["em", "strong"]) ⟨.empty, .empty⟩).2) := fun _ => Prod.ext rfl rfl
  have hsingle : (serializeFragment sampleTable .strict [sampleText "a" ["em", "strong"]] none :
      Guarding Dom NodeId) ⟨.empty, .empty⟩ = (.ok 1, (serializeFragment sampleTable .strict
        [sampleText "a" ["em", "strong"]] none ⟨.empty, .empty⟩).2) := Prod.ext rfl rfl
  obtain ⟨hok, hagree⟩ := serializeNode_agrees (σ := Dom) (τ := Script) sampleTable
    (maps_sampleText "a" ["em", "strong"])
  refine ⟨⟨_, _, hnode .strict, hsingle, ?_⟩, ?_⟩
  · exact hagree .strict _ _ _ _ _ _ .empty .empty (hnode .strict) hsingle
  · exact (hok _ _ .empty .empty).2 ⟨_, _, hnode .lenient⟩

end RichDoc
