import Mathlib
import RichDoc.Markup.Misnesting
import RichDoc.Proofs.Dom.Lifting
import RichDoc.Proofs.Markup.Standing

/-!
# Formatting that ends in the wrong order leaves a forest

When a block is taken out of its formatting, it is hung up again at an element that was opened
before it, or at the parent of one. None of these is below the block, so the tree stays a forest,
and the copies of the elements between the two are opened in their order.
-/

namespace RichDoc.Markup

open Std.Do

set_option mvcgen.warning false

variable {c origin : Construction} {block : NodeId}

attribute [spec] endOrdinary

/-! ### Splitting what is between -/

/-- While elements are split, their copies stand around the block. -/
structure Splitting (origin : Construction) (block : NodeId) (c : Construction)
    (lifting : Lifting) : Prop where
  wrapped : origin.dom.Wrapped block c.dom lifting.moved (lifting.kept.map (·.id))
  opened_eq : c.opened = origin.opened
  head_eq : c.head = origin.head

/-- Splitting elements puts copies of the first ones around the block. -/
@[spec] theorem splitBetween_splitting (steps : Nat) (lifting : Lifting)
    (outer : List OpenElement) :
    ⦃fun c => ⌜Splitting origin block c lifting⌝⦄ splitBetween block steps lifting outer
    ⦃⇓ lifting c => ⌜Splitting origin block c lifting⌝⦄ := by
  induction outer generalizing steps lifting with
  | nil => mvcgen [splitBetween]
  | cons element outer ih =>
    mvcgen [splitBetween, createFor, ih]
    case h_1 h _ _ _ _ _ _ _ _ _ =>
      exact ⟨h.wrapped.wrap (h.wrapped.wellFormed.around (Dom.sameLinks_createElement ..)
        (Dom.size_createElement ..) h.wrapped.moved_lt), h.opened_eq, h.head_eq⟩
    case h_2 h _ _ _ _ _ _ _ => exact ⟨h.wrapped, h.opened_eq, h.head_eq⟩

/-! ### Taking a block out of its formatting -/

/-- A table ends the scope in which formatting is looked for, and so does a template. -/
theorem isOf_of_not_ends {element : OpenElement}
    (h : Scope.element.ends element.name = false) :
    element.isOf ["template"] = false ∧ element.isOf ["table"] = false := by
  simp only [Scope.ends, OpenElement.isOf, isHtmlOf] at h ⊢
  grind

/-- The place of the lifted block is not looked for in the elements that are newer than the
formatting. -/
theorem outside_append {passed : List OpenElement}
    (hpassed : ∀ element ∈ passed, Scope.element.ends element.name = false)
    (rest : List OpenElement) :
    Construction.placeIn.outside c (passed ++ rest) = Construction.placeIn.outside c rest := by
  induction passed with
  | nil => rfl
  | cons element passed ih =>
    obtain ⟨hfirst, hpassed⟩ := List.forall_mem_cons.mp hpassed
    obtain ⟨htemplate, htable⟩ := isOf_of_not_ends hfirst
    rw [List.cons_append, Construction.placeIn.outside, htemplate, htable]
    exact ih hpassed

variable {passed below between newer kept : List OpenElement} {outer element renewed : OpenElement}

/-- The block goes to an element that was opened before it, or beside a table among them. -/
theorem names_placeIn_below (hopened : c.opened = passed ++ outer :: below)
    (hpassed : ∀ element ∈ passed, Scope.element.ends element.name = false) :
    (c.placeIn below.head?).Names (· ∈ standingNodes none (outer :: below)) := by
  have hmem : ∀ element ∈ outer :: below, element.id ∈ standingNodes none (outer :: below) :=
    fun element h => mem_standingNodes.mpr (Or.inl ⟨⟨element, h, rfl⟩, nofun⟩)
  have hroot : 0 ∈ standingNodes none (outer :: below) := mem_standingNodes.mpr (Or.inr rfl)
  cases hhead : below.head? with
  | none => exact hroot
  | some target =>
    rw [Construction.placeIn]
    split
    · rw [hopened, outside_append hpassed]
      refine names_outside hroot (fun element h => hmem element ?_) hmem
      rw [Construction.outermost, hopened,
        List.getLast?_append_of_ne_nil _ (List.cons_ne_nil outer below)] at h
      exact List.mem_of_getLast? h
    · exact hmem target (List.mem_cons_of_mem _ (List.mem_of_head? hhead))

/-- When the block is lifted and has its new content, the open elements stand in their order. -/
theorem standing_lifted {dom hung dom' : Dom} {head : Option OpenElement} {target : NodeId}
    (h : Standing none dom (newer.reverse ++ element :: below) head)
    (hl : dom.Lifted element.id target hung (kept.map (·.id)))
    (hr : hung.Refilled dom' element.id) (hid : renewed.id = hung.size)
    (htarget : ∀ element ∈ newer, ¬dom.Under target element.id) :
    Standing none dom' (below.reverse ++ kept ++ element :: renewed :: newer).reverse head := by
  have hsize : dom.size ≤ dom'.size := hr.size_eq ▸ Nat.le_succ_of_le hl.size_le
  have hlist : (below.reverse ++ kept ++ element :: renewed :: newer).reverse =
      newer.reverse ++ renewed :: element :: (kept.reverse ++ below) := by simp
  have hnodes :
      standingNodes none (newer.reverse ++ renewed :: element :: (kept.reverse ++ below)) =
        newer.reverse.map (·.id) ++ hung.size :: element.id ::
          ((kept.map (·.id)).reverse ++ standingNodes none below) := by
    simp [standingNodes_none, hid]
  have hbefore : standingNodes none (newer.reverse ++ element :: below) =
      newer.reverse.map (·.id) ++ element.id :: standingNodes none below := by
    simp [standingNodes_none]
  rw [hlist]
  refine ⟨hr.wellFormed, h.rooted.trans_le hsize, ?_,
    fun e he => (h.head_lt e he).trans_le hsize, ?_⟩
  · have hold := h.opened_lt
    simp only [List.forall_mem_append, List.forall_mem_cons] at hold ⊢
    refine ⟨fun e he => (hold.1 e he).trans_le hsize, ?_, hold.2.1.trans_le hsize, fun e he => ?_,
      fun e he => (hold.2.2 e he).trans_le hsize⟩
    · rw [hid, hr.size_eq]
      exact Nat.lt_succ_self _
    · rw [hr.size_eq]
      exact Nat.lt_succ_of_lt (hl.copy_lt (List.mem_map_of_mem (List.mem_reverse.mp he)))
  · rw [hnodes]
    refine hl.pairwise hr (fun id hmem => h.lt_size (hbefore ▸ hmem)) (hbefore ▸ h.nested) ?_
    intro id hmem
    obtain ⟨e, he, rfl⟩ := List.mem_map.mp hmem
    exact htarget e (List.mem_reverse.mp he)

/-- What was moved last is hung up at a target that is below neither the block nor what was opened
after it. -/
theorem Splitting.lifted {lifting : Lifting} (hs : Splitting origin element.id c lifting)
    (h : origin.Sound none)
    (hopened : origin.opened = newer.reverse ++ element :: between.reverse ++ outer :: below)
    (hpassed : ∀ passed ∈ newer.reverse ++ element :: between.reverse,
      Scope.element.ends passed.name = false) :
    let detached := { c with dom := c.dom.detach (some lifting.moved) }
    let placed := detached.putAt (detached.placeIn below.head?) (.node (some lifting.moved))
    placed.head = origin.head ∧ ∃ target,
      origin.dom.Lifted element.id target placed.dom (lifting.kept.map (·.id)) ∧
        ∀ e ∈ newer, ¬origin.dom.Under target e.id := by
  intro detached placed
  have hnames : (detached.placeIn below.head?).Names (· ∈ standingNodes none (outer :: below)) :=
    names_placeIn_below (hs.opened_eq.trans hopened) hpassed
  have hplaced : placed = _ := detached.putAt_eq _ _
  have hparent := hnames.parentIn detached.dom
  set target := (detached.placeIn below.head?).parentIn detached.dom
  have hnested := h.nested
  rw [hopened, standingNodes_none, List.map_append, List.append_assoc, ← standingNodes_none,
    List.pairwise_append] at hnested
  have hapart : ∀ id ∈ standingNodes none (outer :: below), id < origin.dom.size ∧
      ∀ e ∈ newer.reverse ++ element :: between.reverse, ¬origin.dom.Under id e.id := by
    intro id hid
    refine ⟨h.lt_size ?_, fun e he => hnested.2.2 _ (List.mem_map_of_mem he) id hid⟩
    rw [hopened, standingNodes_none, List.map_append, List.append_assoc, ← standingNodes_none]
    exact List.mem_append_right _ hid
  have helement : element ∈ newer.reverse ++ element :: between.reverse := by simp
  have htarget : target < origin.dom.size ∧
      ∀ e ∈ newer.reverse ++ element :: between.reverse, ¬origin.dom.Under target e.id := by
    rcases hparent with hmem | ⟨table, hmem, hup⟩
    · exact hapart target hmem
    · obtain ⟨hlt, hnot⟩ := hapart table hmem
      obtain ⟨hlt, hu⟩ := hs.wrapped.under_parent hlt (hnot element helement) hup
      exact ⟨hlt, fun e he htop => hnot e he (hu.trans htop)⟩
  refine ⟨?_, target, ?_, fun e he => htarget.2 e (by simp [he])⟩
  · rw [hplaced]
    exact hs.head_eq
  · rw [hplaced]
    exact hs.wrapped.hang htarget.1 (htarget.2 element helement)

/-- A block that is taken out of its formatting leaves a sound construction. -/
theorem liftBlock_sound {id : NodeId} {tag : Tag} (h : origin.Sound none)
    (hopened : origin.opened = newer.reverse ++ element :: between.reverse ++ outer :: below)
    (hpassed : ∀ passed ∈ newer.reverse ++ element :: between.reverse,
      Scope.element.ends passed.name = false) :
    ⦃fun c => ⌜c = origin⌝⦄ liftBlock id tag below between element newer
    ⦃⇓ _ c => ⌜c.Sound none⌝⦄ := by
  have hkept : (newer.reverse ++ element :: below).Sublist origin.opened := by
    rw [hopened, List.append_assoc, List.cons_append]
    refine List.Sublist.append_left (.cons_cons _ ?_) _
    exact (List.sublist_cons_self outer below).trans (List.sublist_append_right _ _)
  mvcgen [liftBlock, createFor]
  case pre hc =>
    subst hc
    exact ⟨.start h.wellFormed (h.opened_lt element (by simp [hopened])), rfl, rfl⟩
  case success hc _ _ hs _ _ _ _ =>
    subst hc
    obtain ⟨hhead, target, hl, htarget⟩ := hs.lifted h hopened hpassed
    exact standing_lifted (hhead ▸ Standing.close h hkept) hl
      (hl.wellFormed.refill (Dom.sameLinks_createElement ..) (Dom.size_createElement ..)
        (hl.block_lt.trans_le hl.size_le)) rfl htarget

/-! ### Ending formatting -/

/-- What is passed on the way to formatting that is seen does not end the scope. -/
theorem not_ends_of_findInScope {id : NodeId} {opened : List OpenElement}
    (h : Construction.findInScope .element (·.id == id) opened = true) :
    ∀ element ∈ opened.takeWhile (fun element => element.id != id),
      Scope.element.ends element.name = false := by
  induction opened with
  | nil => nofun
  | cons element rest ih =>
    rw [Construction.findInScope] at h
    rw [List.takeWhile_cons]
    split
    · rename_i hne
      rw [if_neg (by simpa using hne)] at h
      split at h
      · cases h
      · rename_i hends
        exact List.forall_mem_cons.mpr ⟨Bool.eq_false_iff.mpr hends, ih h⟩
    · exact List.forall_mem_nil _

/-- Formatting is closed with all that is in it, unless a block has to be lifted out of it. -/
@[spec] theorem endFormattingOnce_keeps (name : String) : Keeps none (endFormattingOnce name) := by
  mvcgen [endFormattingOnce]
  case h_1 h _ _ _ _ _ below hdrop _ _ _ _ =>
    have hbelow : (_ :: below).Sublist _ := hdrop ▸ List.drop_sublist ..
    exact Standing.close h ((List.sublist_cons_self ..).trans hbelow)
  case h_2 c h id _ _ passed outer below hdrop hseen between block newest hsplit =>
    have hopened : c.opened = passed ++ outer :: below := by
      rw [← hdrop]
      exact (List.prefix_iff_eq_append.mp (List.takeWhile_prefix _)).symm
    have hreversed : passed.reverse = between ++ block :: newest := by
      rw [← hsplit]
      exact (List.prefix_iff_eq_append.mp (List.takeWhile_prefix _)).symm
    have hpassed : passed = newest.reverse ++ block :: between.reverse := by
      rw [← List.reverse_reverse passed, hreversed]
      simp
    rw [Bool.not_eq_true', Bool.not_eq_false] at hseen
    exact liftBlock_sound h (hpassed ▸ hopened) (hpassed ▸ not_ends_of_findInScope hseen) c rfl

/-- Formatting can be ended any number of times. -/
@[spec] theorem endFormattingTimes_keeps (name : String) (times : Nat) :
    Keeps none (endFormattingTimes name times) := by
  induction times with
  | zero => mvcgen [endFormattingTimes]
  | succ times ih => mvcgen [endFormattingTimes, ih]

attribute [spec] endFormatting endOuterLink

end RichDoc.Markup
