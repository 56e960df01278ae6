import RichDoc.Proofs.Build.Discipline
import RichDoc.Proofs.Serializer.Losses
import RichDoc.Proofs.Serializer.Policies

/-!
# Serializing builds lawfully

The walk over siblings appends to the node that takes them and to the places of the wrappers that
are open, all of which are below that node. So every call of it keeps to the laws, wherever it
fails, and if it succeeds without leaving out a mark, then all that it made hangs together.
-/

namespace RichDoc

/-- A node that an open wrapper was appended to, or that takes what comes next. -/
def OpenMarks.On (opened : OpenMarks Nat) (node : Nat) : Prop :=
  node = opened.top ∨ ∃ mark ∈ opened.marks, node = mark.parent

/-- The wrappers that stay open and those to close are all open wrappers. -/
theorem agreeing_append {η : Type} (table : TemplateTable) (opened : List (OpenMark η))
    (marks : List Mark) :
    (agreeing table opened marks).1 ++ (agreeing table opened marks).2.1 = opened := by
  induction marks generalizing opened with
  | nil => rw [agreeing, List.nil_append]
  | cons mark marks ih =>
    cases opened with
    | nil => rfl
    | cons outer inner =>
      rw [agreeing]
      split
      · split
        · exact congrArg (outer :: ·) (ih inner)
        · rfl
      · exact ih (outer :: inner)

/-- Closing wrappers opens no other places. -/
theorem OpenMarks.On.of_closing {table : TemplateTable} {marks : List Mark}
    {opened : OpenMarks Nat} {node : Nat}
    (h : (closing (agreeing table opened.marks marks).1 (agreeing table opened.marks marks).2.1
      opened.top).On node) : opened.On node := by
  have hall := agreeing_append table opened.marks marks
  generalize (agreeing table opened.marks marks).1 = kept at h hall
  generalize (agreeing table opened.marks marks).2.1 = closed at h hall
  have hkept : ∀ mark ∈ kept, mark ∈ opened.marks := fun mark hmem =>
    hall ▸ List.mem_append_left _ hmem
  cases closed with
  | nil => exact h.imp_right fun ⟨mark, hmem, he⟩ => ⟨mark, hkept mark hmem, he⟩
  | cons outermost others =>
    have hout : outermost ∈ opened.marks :=
      hall ▸ List.mem_append_right _ List.mem_cons_self
    rcases h with he | ⟨mark, hmem, he⟩
    · exact Or.inr ⟨outermost, hout, he⟩
    · exact Or.inr ⟨mark, hkept mark hmem, he⟩

namespace Script

/-- The places that are open since a script: each is a node or new, and below the node. -/
def OpenBelow (target : Nat) (start script : Script) (opened : OpenMarks Nat) : Prop :=
  ∀ x, opened.On x → (x = target ∨ start.count < x) ∧ x ≤ script.count ∧
    Reaches script.edges target x

/-- What has been put into a node since a script: lawful calls that hang on that node only, and if
nothing was left out all that was made is below it. -/
structure Filling (given : Prop) (target : Nat) (whole : Prop) (start script : Script) : Prop where
  grows : Grows (fun x => x = target) start script
  lawful : Lawful given start script
  covers : whole → Covers start script target

variable {given whole : Prop} {target : Nat} {start s t : Script} {opened : OpenMarks Nat}

theorem OpenBelow.grows {outer : Nat → Prop} (h : OpenBelow target start s opened)
    (hg : Grows outer s t) : OpenBelow target start t opened := fun x hx =>
  ⟨(h x hx).1, Nat.le_trans (h x hx).2.1 hg.1, hg.reaches (h x hx).2.2⟩

namespace Filling

theorem refl (given : Prop) (target : Nat) (whole : Prop) (s : Script) :
    Filling given target whole s s :=
  ⟨.refl _ s, .refl _ s, fun _ => .of_count_eq _ rfl⟩

/-- Nodes of their own have been made, and it does not matter whether they hang together. -/
theorem made {other : Prop} (h : Filling given target whole start s)
    (hg : Grows (fun _ => False) s t) (hl : Lawful given s t) (hno : ¬other) :
    Filling given target other start t :=
  ⟨h.grows.trans hg fun _ hx => hx.elim, h.lawful.trans hl, fun ho => absurd ho hno⟩

/-- New nodes have been hung on an open place. -/
theorem hang (h : Filling given target whole start s) (hs : start.Closed)
    (hp : start.Place given target) {x : Nat}
    (hx : (x = target ∨ start.count < x) ∧ x ≤ s.count ∧ Reaches s.edges target x)
    (hg : Grows (fun _ => False) s t) (hl : Lawful given s t) (hlt : s.count < t.count)
    {root : Nat} (hr : root = s.count + 1) (hc : whole → Covers s t root) :
    Filling given target whole start (TreeBuilder.appendChild t x root) ∧
      Grows (fun y => y = x) s (TreeBuilder.appendChild t x root) := by
  subst hr
  obtain ⟨hopen, hle, hreach⟩ := hx
  have hplace : s.Place given x := by
    refine ⟨fun hzero => ?_, hle⟩
    rcases hopen with rfl | hnew
    · exact hp.1 hzero
    · omega
  have hang : Grows (fun y => y = x) s (TreeBuilder.appendChild t x (s.count + 1)) :=
    hg.hang hlt hle rfl
  refine ⟨⟨h.grows.trans hang fun y hy => hy ▸ hopen,
    h.lawful.trans (hl.hang hg hlt (h.grows.closed hs) hplace), fun hw => ?_⟩, hang⟩
  exact (h.covers hw).trans hang (((hc hw).hang x).of_reaches (hang.reaches hreach))

end Filling

end Script

open Script

variable {given : Prop}

/-- A mark without a wrapper leaves everything as it is. -/
theorem eq_of_renderMark_none {σ η : Type} [TreeBuilder σ η] {table : TemplateTable} {mark : Mark}
    {node : Node} {state after : Guarded σ}
    (h : (renderMark table mark node : Guarding σ (Option (Rendered η))) state =
      (.ok none, after)) : after = state := by
  have hm : table.hasMark mark.typeName = false := by
    rw [← Bool.not_eq_true]
    exact fun hm => renderMark_ne_none hm node state after h
  rw [renderMark_of_not_hasMark hm] at h
  exact (Prod.ext_iff.mp h).2.symm

/-- The wrapper of a mark is built lawfully and hangs together. -/
theorem renderMark_builds (given : Prop) (table : TemplateTable) (mark : Mark) (node : Node)
    {state : Guarded Script} (hs : state.tree.Closed) :
    Lawful given state.tree
        ((renderMark table mark node : Guarding Script (Option (Rendered Nat))) state).2.tree ∧
      ∀ rendered,
        ((renderMark table mark node : Guarding Script (Option (Rendered Nat))) state).1 =
          .ok (some rendered) →
        Covers state.tree
          ((renderMark table mark node : Guarding Script (Option (Rendered Nat))) state).2.tree
          rendered.root := by
  unfold renderMark
  cases table.mark? mark.typeName with
  | none => exact ⟨.refl _ _, nofun⟩
  | some template =>
    have hb := (renderGuarded_builds given (template mark node.isInline) [mark.attrs, node.attrs]
      state).2 hs
    dsimp only
    rcases hr : ((template mark node.isInline).renderGuarded [mark.attrs, node.attrs] :
      Guarding Script (Rendered Nat)) state with ⟨error | rendered, after⟩
    · rw [hr] at hb
      rw [Building.bind_apply_error hr]
      exact ⟨hb.1, nofun⟩
    · rw [hr] at hb
      rw [Building.bind_apply_ok hr]
      refine ⟨hb.1, fun other ho => ?_⟩
      cases ho
      exact hb.2 rendered rfl

/-- Some work has succeeded under the strict policy, so that nothing was left out. -/
def Whole {α : Type} (policy : MarkPolicy) (result : Except Error α) : Prop :=
  policy = .strict ∧ ∃ a, result = .ok a

theorem not_whole_error {α : Type} (policy : MarkPolicy) (error : Error) :
    ¬Whole policy (.error error : Except Error α) := fun ⟨_, _, h⟩ => nomatch h

/-- Wrappers are opened lawfully, each below the place where it is opened. -/
theorem openMarks_filling {target : Nat} {start : Script} (hs : start.Closed)
    (hp : start.Place given target) (table : TemplateTable) (policy : MarkPolicy) (node : Node)
    (marks : List Mark) {opened : OpenMarks Nat} {state : Guarded Script}
    (h : Filling given target (policy = .strict) start state.tree)
    (ho : OpenBelow target start state.tree opened) :
    let run := (openMarks table policy node marks opened : Guarding Script (OpenMarks Nat)) state
    Filling given target (Whole policy run.1) start run.2.tree ∧
      ∀ opened', run.1 = .ok opened' → OpenBelow target start run.2.tree opened' := by
  induction marks generalizing opened state with
  | nil =>
    refine ⟨⟨h.grows, h.lawful, fun hw => h.covers hw.1⟩, fun opened' he => ?_⟩
    cases he
    exact ho
  | cons mark rest ih =>
    rw [openMarks, Building.bind_apply_ok (attempt_apply _ _)]
    have hclosed := h.grows.closed hs
    have hb := renderMark_builds given table mark node hclosed
    rcases hr : (renderMark table mark node : Guarding Script (Option (Rendered Nat))) state with
      ⟨error | _ | wrapper, after⟩
    · have hg := grows_of_renderMark hr
      rw [hr] at hb
      dsimp only
      split
      · refine ⟨h.made hg hb.1 (not_whole_error policy error), fun opened' he => ?_⟩
        cases he
      · rename_i hstop
        have hlenient : policy ≠ .strict := by
          rintro rfl
          exact hstop (isTemplateError_of_renderMark hr)
        exact ih (h.made hg hb.1 hlenient) (ho.grows hg)
    · obtain rfl := eq_of_renderMark_none hr
      exact ih h ho
    · have hmakes := makes_of_renderMark hr
      obtain ⟨hlt, hroot, -⟩ := hmakes.2 wrapper rfl
      obtain ⟨hbelow, hnew, hle⟩ := hmakes.place mark
      rw [hr] at hb
      have htop := ho opened.top (Or.inl rfl)
      obtain ⟨hfilling, hang⟩ := h.hang hs hp htop hmakes.1 hb.1 hlt hroot fun _ =>
        hb.2 wrapper rfl
      dsimp only
      rw [Building.bind_apply_ok (appendTo_apply _ _ _)]
      refine ih hfilling fun x hx => ?_
      rcases hx with rfl | ⟨m, hmem, rfl⟩
      · refine ⟨Or.inr (Nat.lt_of_le_of_lt h.grows.1 hnew), hle, ?_⟩
        have hedge : Reaches (TreeBuilder.appendChild after.tree opened.top wrapper.root).edges
            opened.top wrapper.root := by
          rw [edges_appendChild]
          exact .edge (List.mem_append_right _ (List.mem_singleton.mpr rfl))
        have hplace : Reaches (TreeBuilder.appendChild after.tree opened.top wrapper.root).edges
            wrapper.root (Wrapper.place ⟨mark, wrapper, state, after⟩) := by
          rw [edges_appendChild]
          exact hbelow.append _
        exact ((hang.reaches htop.2.2).trans hedge).trans hplace
      · rcases List.mem_append.mp hmem with hmem | hmem
        · exact (ho.grows hang) m.parent (Or.inr ⟨m, hmem, rfl⟩)
        · rw [List.mem_singleton.mp hmem]
          exact (ho.grows hang) opened.top (Or.inl rfl)

/-- A node that is built in new nodes, lawfully and hanging together below the first of them. -/
def InnerBuilt (given : Prop) (policy : MarkPolicy) (before : Script) (result : Except Error Nat)
    (after : Script) : Prop :=
  Grows (fun _ => False) before after ∧ Lawful given before after ∧
    ∀ inner, result = .ok inner → before.count < after.count ∧ inner = before.count + 1 ∧
      (policy = .strict → Covers before after inner)

mutual

/-- A node is built lawfully. -/
theorem renderNode_built (table : TemplateTable) (policy : MarkPolicy) : (node : Node) →
    {state : Guarded Script} → state.tree.Closed →
    InnerBuilt given policy state.tree
      ((renderNode table policy node : Guarding Script Nat) state).1
      ((renderNode table policy node : Guarding Script Nat) state).2.tree
  | ⟨type, attrs, content, marks, text⟩, state, hs => by
    rw [renderNode]
    cases table.node? type.name with
    | none => exact ⟨.refl _ _, .refl _ _, nofun⟩
    | some template =>
      obtain ⟨hmakes, hbuilds⟩ := renderGuarded_builds given
        (template ⟨type, attrs, content, marks, text⟩) [attrs] state
      obtain ⟨hlawful, hcovers⟩ := hbuilds hs
      dsimp only
      rcases hr : ((template ⟨type, attrs, content, marks, text⟩).renderGuarded [attrs] :
        Guarding Script (Rendered Nat)) state with ⟨error | rendered, made⟩
      · rw [hr] at hmakes hlawful
        rw [Building.bind_apply_error hr]
        exact ⟨hmakes.1, hlawful, nofun⟩
      · rw [hr] at hmakes hlawful hcovers
        rw [Building.bind_apply_ok hr]
        obtain ⟨hg, hok⟩ := hmakes
        obtain ⟨hlt, hroot, hhole⟩ := hok rendered rfl
        cases hh : rendered.hole with
        | none =>
          refine ⟨hg, hlawful, fun inner he => ?_⟩
          cases he
          exact ⟨hlt, hroot, fun _ => hcovers rendered rfl⟩
        | some hole =>
          dsimp only
          split
          · exact ⟨hg, hlawful, nofun⟩
          · obtain ⟨hreach, hnew, hle⟩ := hhole hole hh
            have hplace : made.tree.Place given hole :=
              ⟨fun hzero => by omega, hle⟩
            have hbelow : OpenBelow hole made.tree made.tree ⟨[], hole⟩ := by
              rintro x (rfl | ⟨m, hmem, -⟩)
              · exact ⟨Or.inl rfl, hle, .refl _ _⟩
              · cases hmem
            have hfill := serializeNodes_filling table policy content
              (hg.closed hs) hplace (.refl given hole _ made.tree) hbelow
            rcases hn : (serializeNodes table policy ⟨[], hole⟩ content : Guarding Script Unit)
              made with ⟨error | _, after⟩
            · rw [hn] at hfill
              rw [Building.bind_apply_error hn]
              exact ⟨hg.trans hfill.grows fun x hx => Or.inr (hx ▸ hnew),
                hlawful.trans hfill.lawful, nofun⟩
            · rw [hn] at hfill
              rw [Building.bind_apply_ok hn]
              refine ⟨hg.trans hfill.grows fun x hx => Or.inr (hx ▸ hnew),
                hlawful.trans hfill.lawful, fun inner he => ?_⟩
              cases he
              refine ⟨Nat.lt_of_lt_of_le hlt hfill.grows.1, hroot, fun hstrict => ?_⟩
              exact (hcovers rendered rfl).trans hfill.grows
                ((hfill.covers ⟨hstrict, (), rfl⟩).of_reaches (hfill.grows.reaches hreach))

/-- Siblings are built lawfully into a node. -/
theorem serializeNodes_filling (table : TemplateTable) (policy : MarkPolicy) :
    (nodes : List Node) → {target : Nat} → {start : Script} → {opened : OpenMarks Nat} →
    {state : Guarded Script} → start.Closed → start.Place given target →
    Filling given target (policy = .strict) start state.tree →
    OpenBelow target start state.tree opened →
    Filling given target
      (Whole policy ((serializeNodes table policy opened nodes : Guarding Script Unit) state).1)
      start ((serializeNodes table policy opened nodes : Guarding Script Unit) state).2.tree
  | [], target, start, opened, state, _, _, h, _ => by
    rw [serializeNodes]
    exact ⟨h.grows, h.lawful, fun hw => h.covers hw.1⟩
  | node :: rest, target, start, opened, state, hs, hp, h, ho => by
    rw [serializeNodes]
    dsimp only
    obtain ⟨hopen, hbelow⟩ := openMarks_filling hs hp table policy node
      (agreeing table opened.marks node.marks).2.2 h fun x hx => ho x hx.of_closing
    rcases hm : (openMarks table policy node (agreeing table opened.marks node.marks).2.2
      (closing (agreeing table opened.marks node.marks).1
        (agreeing table opened.marks node.marks).2.1 opened.top) :
      Guarding Script (OpenMarks Nat)) state with ⟨error | opened', inside⟩
    · rw [hm] at hopen
      rw [Building.bind_apply_error hm]
      exact ⟨hopen.grows, hopen.lawful, fun hw => absurd hw (not_whole_error policy error)⟩
    · rw [hm] at hopen hbelow
      rw [Building.bind_apply_ok hm]
      have hopen : Filling given target (policy = .strict) start inside.tree :=
        ⟨hopen.grows, hopen.lawful, fun hstrict => hopen.covers ⟨hstrict, _, rfl⟩⟩
      have hclosed := hopen.grows.closed hs
      obtain ⟨hg, hlawful, hok⟩ := renderNode_built table policy node hclosed
      rcases hn : (renderNode table policy node : Guarding Script Nat) inside with
        ⟨error | inner, built⟩
      · rw [hn] at hg hlawful
        rw [Building.bind_apply_error hn]
        exact hopen.made hg hlawful (not_whole_error policy error)
      · rw [hn] at hg hlawful hok
        rw [Building.bind_apply_ok hn, Building.bind_apply_ok (appendTo_apply _ _ _)]
        obtain ⟨hlt, hinner, hcovers⟩ := hok inner rfl
        have hbelow' := hbelow opened' rfl
        obtain ⟨hfilling, hang⟩ := hopen.hang hs hp (hbelow' opened'.top (Or.inl rfl)) hg hlawful
          hlt hinner hcovers
        exact serializeNodes_filling table policy rest hs hp hfilling (hbelow'.grows hang)

end

/-! ### Wrapping from the inside out -/

/-- A script whose nodes are all built, lawfully, below one that hangs on nothing. -/
structure Script.Rooted (given whole : Prop) (script : Script) (root : Nat) : Prop where
  lawful : Lawful given .empty script
  closed : script.Closed
  pos : 0 < root
  le : root ≤ script.count
  free : ∀ p, (p, root) ∉ script.edges
  covers : whole → Covers .empty script root

/-- A rooted script is wrapped. -/
theorem Script.Rooted.wrap {whole : Prop} {s t : Script} {inner root place : Nat}
    (h : Rooted given whole s inner) (hg : Grows (fun _ => False) s t)
    (hl : Lawful given s t) (hroot : root = s.count + 1) (hc : Covers s t root)
    (hreach : Reaches t.edges root place) (hnew : s.count < place) (hle : place ≤ t.count) :
    Rooted given whole (TreeBuilder.appendChild t place inner) root := by
  have hedges := edges_appendChild t place inner
  have hreach' : Reaches (TreeBuilder.appendChild t place inner).edges root place := by
    rw [hedges]
    exact hreach.append _
  have hfree : ∀ p, (p, inner) ∉ t.edges := by
    obtain ⟨-, added, he, -, hadd⟩ := id hg
    intro p hmem
    rw [he] at hmem
    rcases List.mem_append.mp hmem with hmem | hmem
    · exact h.free p hmem
    · have hlt := (hadd _ hmem).2.2.1
      exact absurd h.le (Nat.not_le_of_lt hlt)
  have happly : Step given t (TreeBuilder.appendChild t place inner) := by
    refine .append ⟨fun hzero => by omega, hle⟩ h.pos (Nat.le_trans h.le hg.1) hfree fun hr => ?_
    obtain ⟨_, hno, -⟩ := hg.reaches_new h.closed (fun _ hno => hno.elim) h.le hnew hr
    exact hno
  refine ⟨(h.lawful.trans hl).step happly, ?_, by omega, ?_, ?_, fun hw => ?_⟩
  · intro e hmem
    rw [hedges] at hmem
    rcases List.mem_append.mp hmem with hmem | hmem
    · exact hg.closed h.closed e hmem
    · rw [List.mem_singleton.mp hmem]
      exact ⟨hle, Nat.le_trans h.le hg.1⟩
  · rw [count_appendChild]
    omega
  · intro p hmem
    rw [hedges, hroot] at hmem
    rcases List.mem_append.mp hmem with hmem | hmem
    · exact hg.first_free h.closed p hmem
    · have hlast := (Prod.mk.inj (List.mem_singleton.mp hmem)).2
      have hle := h.le
      omega
  · intro x hx hlex
    by_cases hold : x ≤ s.count
    · have hinner := hg.reaches (h.covers hw x hx hold)
      have hedge : Reaches (TreeBuilder.appendChild t place inner).edges place inner := by
        rw [hedges]
        exact .edge (List.mem_append_right _ (List.mem_singleton.mpr rfl))
      refine (hreach'.trans hedge).trans ?_
      rw [hedges]
      exact hinner.append _
    · rw [hedges]
      exact (hc x (Nat.lt_of_not_le hold) hlex).append _

/-- A node is wrapped lawfully, from the innermost mark on. -/
theorem wrapMarks_rooted (table : TemplateTable) (node : Node) (marks : List Mark)
    {whole : Prop} {state : Guarded Script} {inner : Nat}
    (h : Rooted given whole state.tree inner) :
    let run := (wrapMarks table node marks inner : Guarding Script Nat) state
    Lawful given .empty run.2.tree ∧
      ∀ root, run.1 = .ok root → Rooted given whole run.2.tree root := by
  induction marks with
  | nil =>
    refine ⟨h.lawful, fun root he => ?_⟩
    cases he
    exact h
  | cons mark rest ih =>
    rw [wrapMarks]
    rcases hw : (wrapMarks table node rest inner : Guarding Script Nat) state with
      ⟨error | wrapped, inside⟩
    · rw [hw] at ih
      rw [Building.bind_apply_error hw]
      exact ⟨ih.1, nofun⟩
    · rw [hw] at ih
      rw [Building.bind_apply_ok hw]
      have hrooted := ih.2 wrapped rfl
      have hb := renderMark_builds given table mark node hrooted.closed
      rcases hr : (renderMark table mark node : Guarding Script (Option (Rendered Nat))) inside
        with ⟨error | _ | wrapper, after⟩
      · rw [hr] at hb
        rw [Building.bind_apply_error hr]
        exact ⟨ih.1.trans hb.1, nofun⟩
      · obtain rfl := eq_of_renderMark_none hr
        rw [Building.bind_apply_ok hr]
        refine ⟨ih.1, fun root he => ?_⟩
        cases he
        exact hrooted
      · have hmakes := makes_of_renderMark hr
        obtain ⟨hlt, hroot, -⟩ := hmakes.2 wrapper rfl
        obtain ⟨hbelow, hnew, hle⟩ := hmakes.place mark
        rw [hr] at hb
        rw [Building.bind_apply_ok hr]
        dsimp only
        rw [Building.bind_apply_ok (appendTo_apply _ _ _)]
        have hwraps := hrooted.wrap hmakes.1 hb.1 hroot (hb.2 wrapper rfl) hbelow hnew hle
        refine ⟨hwraps.lawful, fun root he => ?_⟩
        cases he
        exact hwraps

/-! ### Whole requests -/

/-- Siblings are built into a node before anything has been appended. -/
theorem serializeNodes_into {target : Nat} {start : Script} (he : start.edges = [])
    (hp : start.Place given target) (guard : Guard) (table : TemplateTable) (policy : MarkPolicy)
    (nodes : List Node) :
    let run := (serializeNodes table policy (openedIn (σ := Script) target []) nodes :
      Guarding Script Unit) ⟨guard, start⟩
    Filling given target (Whole policy run.1) start run.2.tree ∧
      ∀ p, (p, target) ∉ run.2.tree.edges := by
  have hclosed : start.Closed := fun e hmem => by
    rw [he] at hmem
    cases hmem
  have hbelow : OpenBelow target start start (openedIn (σ := Script) target []) := by
    rintro x (rfl | ⟨m, hmem, -⟩)
    · exact ⟨Or.inl rfl, hp.2, .refl _ _⟩
    · cases hmem
  have hfill := @serializeNodes_filling given table policy nodes target start _ ⟨guard, start⟩
    hclosed hp (.refl given target _ start) hbelow
  refine ⟨hfill, fun p hmem => ?_⟩
  obtain ⟨-, added, hedges, -, hadd⟩ := hfill.grows
  rw [hedges, he, List.nil_append] at hmem
  exact absurd hp.2 (Nat.not_le_of_lt (hadd _ hmem).2.2.1)

/-- A fragment is built lawfully, into a container of its own or into the node zero. -/
theorem serializeFragment_lawful (guard : Guard) (table : TemplateTable) (policy : MarkPolicy)
    (fragment : Fragment) {target : Option Nat} (ht : ∀ x ∈ target, x = 0) :
    let run := (serializeFragment table policy fragment target : Guarding Script Nat)
      ⟨guard, .empty⟩
    Lawful (target.isSome = true) .empty run.2.tree ∧
      ∀ root, run.1 = .ok root → (target.isSome = true → root = 0) ∧
        (∀ p, (p, root) ∉ run.2.tree.edges) ∧
        (policy = .strict → Covers .empty run.2.tree root) := by
  intro run
  obtain ⟨root, start, hcontainer, he, hp, hlawful, hroot, hcreated⟩ :
      ∃ root start, (containerOf target : Guarding Script Nat) ⟨guard, .empty⟩ =
          (.ok root, ⟨guard, start⟩) ∧ start.edges = [] ∧
        start.Place (target.isSome = true) root ∧
        Lawful (target.isSome = true) .empty start ∧ (target.isSome = true → root = 0) ∧
        ∀ t, Covers start t root → Covers .empty t root := by
    cases target with
    | none =>
      exact ⟨1, (TreeBuilder.createFragment Script.empty).2, rfl, edges_createFragment .empty,
        ⟨nofun, Nat.le_refl 1⟩, .of_step (.fragment .empty), nofun, fun _ h => .created rfl h⟩
    | some x =>
      obtain rfl : x = 0 := ht x rfl
      exact ⟨0, .empty, rfl, rfl, ⟨fun _ => rfl, Nat.le_refl 0⟩, .refl _ _, fun _ => rfl,
        fun _ h => h⟩
  obtain ⟨hfill, hfree⟩ := serializeNodes_into he hp guard table policy fragment
  have hrun : run = (do
      serializeNodes table policy (openedIn (σ := Script) root []) fragment
      return root : Guarding Script Nat) ⟨guard, start⟩ := by
    show serializeFragment table policy fragment target _ = _
    rw [serializeFragment_eq, Building.bind_apply_ok hcontainer]
  rw [hrun]
  rcases hn : (serializeNodes table policy (openedIn (σ := Script) root []) fragment :
    Guarding Script Unit) ⟨guard, start⟩ with ⟨error | _, after⟩
  · rw [hn] at hfill
    rw [Building.bind_apply_error hn]
    exact ⟨hlawful.trans hfill.lawful, nofun⟩
  · rw [hn] at hfill hfree
    rw [Building.bind_apply_ok hn]
    refine ⟨hlawful.trans hfill.lawful, fun other ho => ?_⟩
    cases ho
    exact ⟨hroot, hfree, fun hstrict => hcreated _ (hfill.covers ⟨hstrict, (), rfl⟩)⟩

/-- A node is built lawfully inside the wrappers of its marks. -/
theorem serializeNode_lawful (guard : Guard) (table : TemplateTable) (policy : MarkPolicy)
    (node : Node) :
    let run := (serializeNode table policy node : Guarding Script Nat) ⟨guard, .empty⟩
    Lawful given .empty run.2.tree ∧
      ∀ root, run.1 = .ok root → Rooted given (policy = .strict) run.2.tree root := by
  intro run
  have hrun : run = (renderNode table policy node >>= fun inner =>
      wrapMarks table node node.marks inner : Guarding Script Nat) ⟨guard, .empty⟩ := rfl
  obtain ⟨hg, hlawful, hok⟩ := @renderNode_built given table policy node ⟨guard, .empty⟩
    closed_empty
  rw [hrun]
  rcases hn : (renderNode table policy node : Guarding Script Nat) ⟨guard, .empty⟩ with
    ⟨error | inner, built⟩
  · rw [hn] at hlawful
    rw [Building.bind_apply_error hn]
    exact ⟨hlawful, nofun⟩
  · rw [hn] at hg hlawful hok
    rw [Building.bind_apply_ok hn]
    obtain ⟨hlt, hinner, hcovers⟩ := hok inner rfl
    refine wrapMarks_rooted table node node.marks ⟨hlawful, hg.closed closed_empty, by omega,
      hinner ▸ hlt, ?_, hcovers⟩
    rw [hinner]
    exact hg.first_free closed_empty

variable {σ η : Type}

/-- A successful run that leaves out no mark is the strict one, if both policies do the same up to
the first failure and the rest does not depend on the policy. -/
theorem exists_policy {α β : Type} (reports : α → List (Report (Traced σ η) η))
    (inner : MarkPolicy → Guarding (Traced σ η) α) (work : MarkPolicy → Guarding (Traced σ η) β)
    (policy : MarkPolicy) {state : Guarded (Traced σ η)}
    (hcut : Cut (fun a => failuresIn (reports a)) (inner .strict state) (inner .lenient state))
    (hwork : ∀ p q, inner p state = inner q state → work p state = work q state)
    (hok : ∀ b, (work policy state).1 = .ok b → ∃ a, (inner policy state).1 = .ok a) :
    ∃ q, work q state = work policy state ∧
      ∀ b, (work policy state).1 = .ok b →
        policy = .strict ∨ failuresOf reports (inner policy state) = [] → q = .strict := by
  cases policy with
  | strict => exact ⟨.strict, rfl, fun _ _ _ => rfl⟩
  | lenient =>
    by_cases hwhole : ∃ b, (work .lenient state).1 = .ok b ∧
      failuresOf reports (inner .lenient state) = []
    · obtain ⟨b, hb, hf⟩ := hwhole
      obtain ⟨a, ha⟩ := hok b hb
      rw [failuresOf, ha] at hf
      exact ⟨.strict, hwork .strict .lenient (hcut.eq_of_ok ha hf), fun _ _ _ => rfl⟩
    · refine ⟨.lenient, rfl, fun b hb hf => absurd ⟨b, hb, ?_⟩ hwhole⟩
      exact hf.resolve_left MarkPolicy.noConfusion

variable [TreeBuilder σ η]

/-- Serializing a fragment builds a tree, or trees in the target. -/
theorem serializeFragment_buildsTree (table : TemplateTable) (policy : MarkPolicy)
    (fragment : Fragment) (target : Option η) (guard : Guard) (tree : σ) :
    let state : Guarded (Traced σ η) := ⟨guard, ⟨tree, []⟩⟩
    let run := serializeFragment table policy fragment target state
    BuildsTree target run.2.tree.calls fun rendered => run.1 = .ok rendered.root ∧
      rendered.hole = none ∧ (policy = .strict ∨
        failuresOf Prod.snd (reportFragment table policy fragment target state) = []) := by
  intro state run
  have hreport : ∀ p : MarkPolicy, serializeFragment table p fragment target state =
      ((reportFragment table p fragment target state).1.map Prod.fst,
        (reportFragment table p fragment target state).2) := fun p => by
    rw [serializeFragment_eq_report, Building.map_apply]
  obtain ⟨q, hq, hstrict⟩ := exists_policy Prod.snd
    (fun p => reportFragment table p fragment target)
    (fun p => serializeFragment table p fragment target) policy
    (reportFragment_cut table fragment target state)
    (fun p p' h => by rw [hreport, hreport, h]) fun root hr => by
      rw [hreport] at hr
      obtain ⟨a, ha, -⟩ := Building.ok_of_map hr
      exact ⟨a, ha⟩
  have hrel : Option.Rel (nodeAt target ([] : List (BuildCall η)) · = some ·)
      (target.map fun _ => 0) target := by
    cases target with
    | none => exact .none
    | some x => exact .some rfl
  have hmaps : ∀ node ∈ fragment, node.Maps GuardPairing.same.maps := fun node _ =>
    GuardPairing.maps_same node
  have halong := (tracks σ target).serializeFragment (g := .same) (s := ⟨guard, .empty⟩)
    (t := state) table q hmaps ⟨tracking_start target tree, rfl⟩ hrel
  have hzero : ∀ x ∈ target.map fun _ => 0, x = 0 := by
    intro x hx
    obtain ⟨_, _, rfl⟩ := Option.map_eq_some_iff.mp hx
    rfl
  obtain ⟨hlawful, hok⟩ := serializeFragment_lawful guard table q fragment hzero
  rw [Option.isSome_map] at hlawful hok
  have hstates := halong.1.states.1
  rw [hq] at hstates
  refine .of_tracking hstates hlawful fun rendered ⟨hr, hhole, hf⟩ => ?_
  obtain ⟨root, script, hmade, -, hroot⟩ := halong.ok_left (hq.trans (Prod.ext hr rfl))
  rw [hmade] at hok ⊢
  obtain ⟨hgiven, hfree, hcovers⟩ := hok root rfl
  refine ⟨root, hroot, hgiven, hfree, hcovers (hstrict _ hr hf), fun hole hh => ?_⟩
  rw [hhole] at hh
  cases hh

/-- Serializing a node builds a tree. -/
theorem serializeNode_buildsTree (table : TemplateTable) (policy : MarkPolicy) (node : Node)
    (guard : Guard) (tree : σ) :
    let state : Guarded (Traced σ η) := ⟨guard, ⟨tree, []⟩⟩
    let run := serializeNode table policy node state
    BuildsTree none run.2.tree.calls fun rendered => run.1 = .ok rendered.root ∧
      rendered.hole = none ∧ (policy = .strict ∨
        failuresOf Prod.snd (reportNode table policy node state) = []) := by
  intro state run
  have hreport : ∀ p : MarkPolicy, serializeNode table p node state =
      (reportNode table p node >>= fun result => wrapMarks table node node.marks result.1 :
        Guarding (Traced σ η) η) state := fun p => by
    rw [serializeNode, renderNode_eq_report, bind_map_left]
  obtain ⟨q, hq, hstrict⟩ := exists_policy Prod.snd (fun p => reportNode table p node)
    (fun p => serializeNode table p node) policy (reportNode_cut table node state)
    (fun p p' h => by rw [hreport, hreport, Building.bind_apply, Building.bind_apply, h])
    fun root hr => by
      rw [hreport] at hr
      obtain ⟨a, t, ha, -⟩ := Building.bind_eq_ok.mp (Prod.ext hr rfl)
      exact ⟨a, by rw [ha]⟩
  have halong := (tracks σ (none : Option η)).serializeNode (g := .same) (s := ⟨guard, .empty⟩)
    (t := state) table q (GuardPairing.maps_same node) ⟨tracking_start none tree, rfl⟩
  have hnode : Lawful ((none : Option η).isSome = true) .empty _ ∧ _ :=
    serializeNode_lawful guard table q node
  obtain ⟨hlawful, hok⟩ := hnode
  have hstates := halong.1.states.1
  rw [hq] at hstates
  refine .of_tracking hstates hlawful fun rendered ⟨hr, hhole, hf⟩ => ?_
  obtain ⟨root, script, hmade, -, hroot⟩ := halong.ok_left (hq.trans (Prod.ext hr rfl))
  rw [hmade] at hok ⊢
  have hrooted := hok root rfl
  refine ⟨root, hroot, nofun, hrooted.free, hrooted.covers (hstrict _ hr hf), fun hole hh => ?_⟩
  rw [hhole] at hh
  cases hh

/-- Every kind of tree sees a script that builds a tree, whatever is rendered or serialized and
however it ends: nodes are used after they were created or given, attributes are set on elements
that were created, and a node is appended at most once, to none at or below it. If it succeeds and
no mark was left out, then every other node than the returned one is appended exactly once, at or
below that one, and so is the hole of a description. -/
theorem calls_buildTree (guard : Guard) (tree : σ) :
    (∀ (blocked : List Suspicious) (spec : Spec),
      let run := (renderSpec blocked spec : Building (Traced σ η) (Rendered η)) ⟨tree, []⟩
      BuildsTree none run.2.calls fun rendered => run.1 = .ok rendered) ∧
    (∀ (table : TemplateTable) (policy : MarkPolicy) (node : Node),
      let state : Guarded (Traced σ η) := ⟨guard, ⟨tree, []⟩⟩
      let run := serializeNode table policy node state
      BuildsTree none run.2.tree.calls fun rendered => run.1 = .ok rendered.root ∧
        rendered.hole = none ∧ (policy = .strict ∨
          failuresOf Prod.snd (reportNode table policy node state) = [])) ∧
    ∀ (table : TemplateTable) (policy : MarkPolicy) (fragment : Fragment) (target : Option η),
      let state : Guarded (Traced σ η) := ⟨guard, ⟨tree, []⟩⟩
      let run := serializeFragment table policy fragment target state
      BuildsTree target run.2.tree.calls fun rendered => run.1 = .ok rendered.root ∧
        rendered.hole = none ∧ (policy = .strict ∨
          failuresOf Prod.snd (reportFragment table policy fragment target state) = []) :=
  ⟨fun blocked spec => renderSpec_buildsTree blocked spec tree,
    fun table policy node => serializeNode_buildsTree table policy node guard tree,
    fun table policy fragment target =>
      serializeFragment_buildsTree table policy fragment target guard tree⟩

end RichDoc
