import RichDoc.Proofs.Dom.Extending

/-!
# Lifting a block out of what is around it

A block is lifted in steps. First it is put into a copy of each element around it that goes on, the
innermost copy first; then the outermost copy is hung up at some other node, the target; at last a
new node takes over the content of the block and is put into it. If the target is not below the
block, no step closes a circle. What comes below what can be said in terms of the store before.
-/

namespace RichDoc.Dom

variable {origin dom made : Dom} {block target moved : NodeId} {copies : List NodeId}

/-! ### A new node around another one -/

/-- A new node that hangs on nothing holds a node that was there. -/
structure Around (dom dom' : Dom) (x : NodeId) : Prop where
  wellFormed : dom'.WellFormed
  size_eq : dom'.size = dom.size + 1
  under_cases : ∀ a b, dom'.Under a b → dom.Under a b ∨ dom.Under a x ∧ b = dom.size
  not_under : ∀ b < dom.size, ¬dom'.Under dom.size b

/-- A new node can be put around every node that was there. -/
theorem WellFormed.around (hw : dom.WellFormed) (hsame : dom.SameLinks made)
    (hsize : made.size = dom.size + 1) {x : NodeId} (hx : x < dom.size) :
    Around dom ((made.detach (some x)).append (some dom.size) (some x)) x := by
  have hmade := hsame.wellFormed hw (hsize ▸ Nat.le_succ _)
  have hd := hmade.detach x
  have hlt : dom.size < (made.detach (some x)).size := by
    rw [hd.size_eq, hsize]
    exact Nat.lt_succ_self _
  have htop : (made.detach (some x)).parent (some dom.size) = none := by
    rw [parent_detach, if_neg hx.ne', hsame.parent_eq, parent,
      show dom.get? (some dom.size) = none from Array.getElem?_eq_none (Nat.le_refl _)]
    rfl
  have hup : ∀ b, (made.detach (some x)).Under dom.size b → b = dom.size := fun b hb =>
    by_contra fun hne => not_under_of_parent_none htop hne hb
  have hunder : ¬(made.detach (some x)).Under dom.size x := fun hu => hx.ne (hup x hu)
  have hr := hd.wellFormed.append hlt (hx.trans hlt) hunder
  refine ⟨hr.wellFormed, by rw [hr.size_eq, hd.size_eq, hsize], fun a b hu => ?_, fun b hb hu => ?_⟩
  · rcases hd.wellFormed.under_append hlt (hx.trans hlt) hunder hu with hu | ⟨ha, hb⟩
    · exact Or.inl (hsame.under_iff.mp (hmade.under_detach hu))
    · exact Or.inr ⟨hsame.under_iff.mp (hmade.under_detach ha), hup b hb⟩
  · rcases hd.wellFormed.under_append hlt (hx.trans hlt) hunder hu with hu | ⟨hu, -⟩
    · exact hb.ne (hup b hu)
    · exact hunder hu

/-! ### Copies around a block -/

/-- Copies are put around a block, the outermost of them first, and the last of them was moved
last. -/
structure Wrapped (origin : Dom) (block : NodeId) (dom : Dom) (moved : NodeId)
    (copies : List NodeId) : Prop where
  wellFormed : dom.WellFormed
  size_le : origin.size ≤ dom.size
  block_lt : block < origin.size
  moved_eq : moved = copies.head?.getD block
  mem_copies_iff : ∀ id, id ∈ copies ↔ origin.size ≤ id ∧ id < dom.size
  old : ∀ a < origin.size, ∀ b < origin.size, dom.Under a b → origin.Under a b
  inside : ∀ a < origin.size, ∀ copy ∈ copies, dom.Under a copy → origin.Under a block
  outside : ∀ copy ∈ copies, ∀ b < origin.size, ¬dom.Under copy b
  nested : copies.Pairwise fun outer inner => ¬dom.Under outer inner

namespace Wrapped

/-- At first there are no copies. -/
theorem start (hw : dom.WellFormed) (hblock : block < dom.size) :
    Wrapped dom block dom block [] where
  wellFormed := hw
  size_le := Nat.le_refl _
  block_lt := hblock
  moved_eq := rfl
  mem_copies_iff _ := iff_of_false List.not_mem_nil fun h => absurd h.2 (Nat.not_lt.mpr h.1)
  old _ _ _ _ h := h
  inside _ _ _ h := absurd h List.not_mem_nil
  outside _ h := absurd h List.not_mem_nil
  nested := .nil

variable (h : Wrapped origin block dom moved copies)

include h

/-- What was moved last is the block or a copy. -/
theorem moved_cases : moved = block ∨ moved ∈ copies := by
  rw [h.moved_eq]
  cases copies with
  | nil => exact Or.inl rfl
  | cons first rest => exact Or.inr (List.mem_cons_self ..)

/-- What was moved last is there. -/
theorem moved_lt : moved < dom.size := by
  rcases h.moved_cases with rfl | hmem
  · exact h.block_lt.trans_le h.size_le
  · exact ((h.mem_copies_iff _).mp hmem).2

/-- What was there before is in the block if it is in what was moved. -/
theorem under_block {a : NodeId} (ha : a < origin.size) (hu : dom.Under a moved) :
    origin.Under a block := by
  rcases h.moved_cases with rfl | hmem
  · exact h.old a ha _ h.block_lt hu
  · exact h.inside a ha _ hmem hu

/-- The copies are there. -/
theorem copy_lt {copy : NodeId} (hcopy : copy ∈ copies) : copy < dom.size :=
  ((h.mem_copies_iff copy).mp hcopy).2

/-- Another copy is put around what was moved last. -/
theorem wrap {dom' : Dom} (hnew : Around dom dom' moved) :
    Wrapped origin block dom' dom.size (dom.size :: copies) := by
  have hne : ∀ {b}, b < origin.size → b ≠ dom.size := fun hb => (hb.trans_le h.size_le).ne
  have hold : ∀ a b, b ≠ dom.size → dom'.Under a b → dom.Under a b := fun a b hb hu =>
    (hnew.under_cases a b hu).resolve_right fun hx => hb hx.2
  refine ⟨hnew.wellFormed, ?_, h.block_lt, rfl, fun id => ?_, ?_, fun a ha => ?_, ?_, ?_⟩
  · exact hnew.size_eq ▸ Nat.le_succ_of_le h.size_le
  · rw [List.mem_cons, h.mem_copies_iff, hnew.size_eq, Nat.lt_succ_iff_lt_or_eq, and_or_left,
      or_comm]
    exact or_congr_right (and_iff_right_of_imp fun he => he ▸ h.size_le).symm
  · exact fun a ha b hb hu => h.old a ha b hb (hold a b (hne hb) hu)
  · refine List.forall_mem_cons.mpr ⟨fun hu => ?_, fun copy hcopy hu => ?_⟩
    · rcases hnew.under_cases a _ hu with hu | ⟨hu, -⟩
      · exact absurd (h.wellFormed.eq_of_under_new hu (Nat.le_refl _)) (hne ha)
      · exact h.under_block ha hu
    · exact h.inside a ha copy hcopy (hold a copy (h.copy_lt hcopy).ne hu)
  · refine List.forall_mem_cons.mpr ⟨fun b hb => hnew.not_under b (hb.trans_le h.size_le), ?_⟩
    exact fun copy hcopy b hb hu => h.outside copy hcopy b hb (hold copy b (hne hb) hu)
  · refine List.pairwise_cons.mpr ⟨fun inner hinner => hnew.not_under inner (h.copy_lt hinner), ?_⟩
    exact h.nested.imp_of_mem fun _ hinner hnot hu => hnot (hold _ _ (h.copy_lt hinner).ne hu)

/-- The parent of a node that is not in the block was above it before. -/
theorem under_parent {id : NodeId} (hid : id < origin.size) (hnot : ¬origin.Under id block)
    (hparent : (dom.detach (some moved)).parent (some id) = some target) :
    target < origin.size ∧ origin.Under id target := by
  have hd := h.wellFormed.detach moved
  have hu : dom.Under id target := h.wellFormed.under_detach (.single hparent)
  have hlt : target < dom.size := hd.size_eq ▸ hd.wellFormed.parents id target hparent
  have htarget : target < origin.size := Nat.lt_of_not_le fun hle =>
    hnot (h.inside id hid target ((h.mem_copies_iff _).mpr ⟨hle, hlt⟩) hu)
  exact ⟨htarget, h.old id hid target htarget hu⟩

end Wrapped

/-! ### The outermost copy at its target -/

/-- What was moved last is hung up at a target that is not below the block. -/
structure Lifted (origin : Dom) (block target : NodeId) (dom : Dom) (copies : List NodeId) :
    Prop where
  wellFormed : dom.WellFormed
  size_le : origin.size ≤ dom.size
  block_lt : block < origin.size
  not_under : ¬origin.Under target block
  mem_copies_iff : ∀ id, id ∈ copies ↔ origin.size ≤ id ∧ id < dom.size
  old : ∀ a < origin.size, ∀ b < origin.size, dom.Under a b →
    origin.Under a b ∨ origin.Under a block ∧ origin.Under target b
  inside : ∀ a < origin.size, ∀ copy ∈ copies, dom.Under a copy → origin.Under a block
  outside : ∀ copy ∈ copies, ∀ b < origin.size, dom.Under copy b → origin.Under target b
  nested : copies.Pairwise fun outer inner => ¬dom.Under outer inner

/-- What was moved last can be hung up at every node that was not below the block. -/
theorem Wrapped.hang (h : Wrapped origin block dom moved copies) (ht : target < origin.size)
    (hnot : ¬origin.Under target block) :
    Lifted origin block target ((dom.detach (some moved)).append (some target) (some moved))
      copies := by
  have hd := h.wellFormed.detach moved
  have hsize : target < (dom.detach (some moved)).size := hd.size_eq ▸ ht.trans_le h.size_le
  have hmoved : moved < (dom.detach (some moved)).size := hd.size_eq ▸ h.moved_lt
  have hunder : ¬(dom.detach (some moved)).Under target moved := fun hu =>
    hnot (h.under_block ht (h.wellFormed.under_detach hu))
  have hr := hd.wellFormed.append hsize hmoved hunder
  have hcases : ∀ a b, ((dom.detach (some moved)).append (some target) (some moved)).Under a b →
      dom.Under a b ∨ dom.Under a moved ∧ dom.Under target b := fun a b hu =>
    (hd.wellFormed.under_append hsize hmoved hunder hu).imp h.wellFormed.under_detach
      (And.imp h.wellFormed.under_detach h.wellFormed.under_detach)
  refine ⟨hr.wellFormed, ?_, h.block_lt, hnot, fun id => ?_, fun a ha b hb hu => ?_,
    fun a ha copy hcopy hu => ?_, fun copy hcopy b hb hu => ?_, ?_⟩
  · rw [hr.size_eq, hd.size_eq]
    exact h.size_le
  · rw [hr.size_eq, hd.size_eq]
    exact h.mem_copies_iff id
  · exact (hcases a b hu).imp (h.old a ha b hb) (And.imp (h.under_block ha) (h.old target ht b hb))
  · exact (hcases a copy hu).elim (h.inside a ha copy hcopy) fun hx => h.under_block ha hx.1
  · exact (hcases copy b hu).elim (fun hu => absurd hu (h.outside copy hcopy b hb))
      fun hx => h.old target ht b hb hx.2
  · refine h.nested.imp_of_mem fun _ hinner hne hu => ?_
    exact (hcases _ _ hu).elim hne fun hx => hnot (h.inside target ht _ hinner hx.2)

/-! ### A new node for the content of the block -/

/-- A node stands for itself, and the new node for the block that it is in. -/
def standIn (dom : Dom) (block id : NodeId) : NodeId := if id = dom.size then block else id

/-- A new node has taken over the children of a block and is its only child. -/
structure Refilled (dom dom' : Dom) (block : NodeId) : Prop where
  wellFormed : dom'.WellFormed
  size_eq : dom'.size = dom.size + 1
  under : ∀ a b, dom'.Under a b → dom.Under (dom.standIn block a) (dom.standIn block b)
  not_under : ¬dom'.Under block dom.size

/-- Nodes are apart if those are for which they stand. -/
theorem Refilled.not_under_of (h : Refilled dom dom' block) {a b : NodeId}
    (hnot : ¬dom.Under (dom.standIn block a) (dom.standIn block b)) : ¬dom'.Under a b :=
  fun hu => hnot (h.under a b hu)

/-- A node that was there stands for itself. -/
theorem standIn_of_lt {id : NodeId} (hid : id < dom.size) (block : NodeId) :
    dom.standIn block id = id := if_neg hid.ne

/-- The new node stands for the block. -/
theorem standIn_size (dom : Dom) (block : NodeId) : dom.standIn block dom.size = block := if_pos rfl

/-- After the children of a node are moved, the target is the only parent that is new. -/
theorem WellFormed.parent_moveChildren (hw : dom.WellFormed) {source target : NodeId}
    (ht : target < dom.size) (hunder : dom.Under target source → target = source) {a b : NodeId}
    (hab : (dom.moveChildren (some source) (some target)).parent (some a) = some b) :
    dom.parent (some a) = some b ∨ dom.parent (some a) = some source ∧ b = target := by
  have hr := hw.rearranges_moveChildren ht hunder
  rw [← hr.wellFormed.mem_children_iff, hr.children_eq, List.mem_append] at hab
  rw [← hw.mem_children_iff, ← hw.mem_children_iff]
  rcases hab with ha | ha
  · split at ha
    · cases ha
    · exact Or.inl ha
  · split at ha
    · exact Or.inr ⟨ha, ‹_›⟩
    · cases ha

section Refilling

variable (hw : dom.WellFormed) (hsame : dom.SameLinks made) (hsize : made.size = dom.size + 1)

include hw hsame

/-- A new node is nobody's parent and has none. -/
theorem parent_of_made {a b : NodeId} (hab : made.parent (some a) = some b) :
    dom.parent (some a) = some b ∧ a ≠ dom.size ∧ b ≠ dom.size := by
  rw [hsame.parent_eq] at hab
  exact ⟨hab, (lt_size_of_parent hab).ne, (hw.parents a b hab).ne⟩

/-- A new node is below itself only. -/
theorem eq_of_made_under {b : NodeId} (hu : made.Under dom.size b) : dom.size = b := by
  rcases Relation.ReflTransGen.cases_head hu with he | ⟨c, hc, -⟩
  · exact he
  · exact absurd rfl (parent_of_made hw hsame hc).2.1

include hsize

/-- What has a parent after the children of a block are moved to a new node had that parent, or the
block for which the new node stands. -/
theorem parent_of_emptied {a b : NodeId}
    (hab : (made.moveChildren (some block) (some dom.size)).parent (some a) = some b) :
    dom.parent (some a) = some (dom.standIn block b) ∧ a ≠ dom.size := by
  have hmade := hsame.wellFormed hw (hsize ▸ Nat.le_succ _)
  rcases hmade.parent_moveChildren (hsize ▸ Nat.lt_succ_self _) (eq_of_made_under hw hsame) hab
    with hp | ⟨hp, rfl⟩
  · obtain ⟨hp, ha, hb⟩ := parent_of_made hw hsame hp
    rw [standIn, if_neg hb]
    exact ⟨hp, ha⟩
  · obtain ⟨hp, ha, -⟩ := parent_of_made hw hsame hp
    rw [standIn_size]
    exact ⟨hp, ha⟩

/-- Moving the children of a block to a new node puts nothing below another node than before, if the
new node stands for the block. -/
theorem under_of_emptied {a b : NodeId}
    (hu : (made.moveChildren (some block) (some dom.size)).Under a b) :
    dom.Under (dom.standIn block a) (dom.standIn block b) := by
  have hstep : ∀ a b, (made.moveChildren (some block) (some dom.size)).parent (some a) = some b →
      dom.Under (dom.standIn block a) (dom.standIn block b) := by
    intro a b hab
    obtain ⟨hp, ha⟩ := parent_of_emptied hw hsame hsize hab
    rw [standIn, if_neg ha]
    exact .single hp
  exact Relation.ReflTransGen.lift' _ hstep _ _ hu

/-- A block without its children is not below the node that has them. -/
theorem not_under_of_emptied (hblock : block < dom.size) :
    ¬(made.moveChildren (some block) (some dom.size)).Under block dom.size := by
  intro hu
  rcases Relation.ReflTransGen.cases_tail hu with he | ⟨c, hbc, hc⟩
  · exact hblock.ne he.symm
  · obtain ⟨hp, hne⟩ := parent_of_emptied hw hsame hsize hc
    have hbelow := under_of_emptied hw hsame hsize hbc
    rw [standIn_of_lt hblock, standIn, if_neg hne] at hbelow
    rw [standIn_size] at hp
    exact hw.not_under_parent hp hbelow

/-- A new node can take over the children of every node that was there. -/
theorem WellFormed.refill (hblock : block < dom.size) :
    Refilled dom ((made.moveChildren (some block) (some dom.size)).append (some block)
      (some dom.size)) block := by
  have hmade := hsame.wellFormed hw (hsize ▸ Nat.le_succ _)
  have hm : made.Rearranges (made.moveChildren (some block) (some dom.size)) _ :=
    hmade.rearranges_moveChildren (hsize ▸ Nat.lt_succ_self _) (eq_of_made_under hw hsame)
  have hsizes := hm.size_eq.trans hsize
  have hr := hm.wellFormed.append (hblock.trans (hsizes ▸ Nat.lt_succ_self _))
    (hsizes ▸ Nat.lt_succ_self _) (not_under_of_emptied hw hsame hsize hblock)
  have hstep : ∀ a b, ((made.moveChildren (some block) (some dom.size)).append (some block)
      (some dom.size)).parent (some a) = some b →
        dom.Under (dom.standIn block a) (dom.standIn block b) := by
    intro a b hab
    rcases hr.parent_cases hm.wellFormed hab with hab | ⟨rfl, rfl⟩
    · exact under_of_emptied hw hsame hsize (.single hab)
    · rw [standIn_size, standIn_of_lt hblock]
      exact .refl
  refine ⟨hr.wellFormed, hr.size_eq.trans hsizes, fun a b hu => ?_, ?_⟩
  · exact Relation.ReflTransGen.lift' _ hstep _ _ hu
  · refine hr.wellFormed.not_under_parent (hr.wellFormed.mem_children_iff.mp ?_)
    rw [hr.children_eq, if_pos rfl]
    exact List.mem_append_right _ (List.mem_singleton_self _)

end Refilling

/-! ### The order of the open nodes -/

namespace Lifted

variable (h : Lifted origin block target dom copies)

include h

/-- The copies are there. -/
theorem copy_lt {copy : NodeId} (hcopy : copy ∈ copies) : copy < dom.size :=
  ((h.mem_copies_iff copy).mp hcopy).2

/-- Nothing comes below a node that the target is not below. -/
theorem not_under_of {a id : NodeId} (ha : a < origin.size) (hid : id < origin.size)
    (hnot : ¬origin.Under a id) (htarget : ¬origin.Under target id) : ¬dom.Under a id :=
  fun hu => (h.old a ha id hid hu).elim hnot fun hx => htarget hx.2

/-- No copy comes below a node that the target is not below. -/
theorem not_copy_under {copy id : NodeId} (hcopy : copy ∈ copies) (hid : id < origin.size)
    (htarget : ¬origin.Under target id) : ¬dom.Under copy id :=
  fun hu => htarget (h.outside copy hcopy id hid hu)

/-- A node that was there stands for itself. -/
theorem standIn_old {id : NodeId} (hid : id < origin.size) : dom.standIn block id = id :=
  standIn_of_lt (hid.trans_le h.size_le) block

/-- A copy stands for itself. -/
theorem standIn_copy {copy : NodeId} (hcopy : copy ∈ copies) : dom.standIn block copy = copy :=
  standIn_of_lt (h.copy_lt hcopy) block

/-- The copies stand for themselves, as do the nodes that were there, and none of those that were
not below the block has come below it. -/
theorem before_block {older : List NodeId} (hlt : ∀ id ∈ older, id < origin.size)
    (hblock : ∀ id ∈ older, ¬origin.Under id block) :
    ∀ id ∈ copies.reverse ++ older, dom.standIn block id = id ∧ ¬dom.Under id block := by
  refine List.forall_mem_append.mpr ⟨fun copy hc => ?_, fun id hid => ?_⟩
  · rw [List.mem_reverse] at hc
    exact ⟨h.standIn_copy hc, h.not_copy_under hc h.block_lt h.not_under⟩
  · exact ⟨h.standIn_old (hlt id hid),
      h.not_under_of (hlt id hid) h.block_lt (hblock id hid) h.not_under⟩

/-- Open nodes are listed newest first. None is below a newer one if it was so before: the copies
stand around the block, and the new node in it. The target stands for what was opened before the
block. -/
theorem pairwise {dom' : Dom} (hnew : Refilled dom dom' block) {newer older : List NodeId}
    (hlt : ∀ id ∈ newer ++ block :: older, id < origin.size)
    (hopen : (newer ++ block :: older).Pairwise fun newer older => ¬origin.Under older newer)
    (htarget : ∀ id ∈ newer, ¬origin.Under target id) :
    (newer ++ dom.size :: block :: (copies.reverse ++ older)).Pairwise
      fun newer older => ¬dom'.Under older newer := by
  simp only [List.pairwise_append, List.pairwise_cons, List.forall_mem_append,
    List.forall_mem_cons] at hopen hlt
  obtain ⟨hnewer, ⟨hblock, holder⟩, hapart⟩ := hopen
  obtain ⟨hltNewer, -, hltOlder⟩ := hlt
  have hbefore := h.before_block hltOlder hblock
  have hnewest : ∀ a ∈ newer, ∀ b < origin.size, ¬origin.Under b a →
      ¬dom.Under b (dom.standIn block a) := by
    intro a ha b hb hnot
    rw [h.standIn_old (hltNewer a ha)]
    exact h.not_under_of hb (hltNewer a ha) hnot (htarget a ha)
  refine List.pairwise_append.mpr ⟨?_, List.pairwise_cons.mpr ⟨?_, List.pairwise_cons.mpr ⟨?_,
    List.pairwise_append.mpr ⟨List.pairwise_reverse.mpr ?_, ?_, ?_⟩⟩⟩, fun a ha => ?_⟩
  · refine hnewer.imp_of_mem fun ha hb hnot => hnew.not_under_of ?_
    rw [h.standIn_old (hltNewer _ hb)]
    exact hnewest _ ha _ (hltNewer _ hb) hnot
  · refine List.forall_mem_cons.mpr ⟨hnew.not_under, fun id hid => hnew.not_under_of ?_⟩
    rw [standIn_size, (hbefore id hid).1]
    exact (hbefore id hid).2
  · intro id hid
    refine hnew.not_under_of ?_
    rw [h.standIn_old h.block_lt, (hbefore id hid).1]
    exact (hbefore id hid).2
  · refine h.nested.imp_of_mem fun ha hb hnot => hnew.not_under_of ?_
    rwa [h.standIn_copy ha, h.standIn_copy hb]
  · refine holder.imp_of_mem fun ha hb hnot => hnew.not_under_of ?_
    rw [h.standIn_old (hltOlder _ ha), h.standIn_old (hltOlder _ hb)]
    exact fun hu => (h.old _ (hltOlder _ hb) _ (hltOlder _ ha) hu).elim hnot fun hx =>
      hblock _ hb hx.1
  · intro copy hc id hid
    rw [List.mem_reverse] at hc
    refine hnew.not_under_of ?_
    rw [h.standIn_copy hc, h.standIn_old (hltOlder id hid)]
    exact fun hu => hblock id hid (h.inside id (hltOlder id hid) copy hc hu)
  · obtain ⟨hfirst, hrest⟩ := hapart a ha
    refine List.forall_mem_cons.mpr ⟨hnew.not_under_of ?_, List.forall_mem_cons.mpr
      ⟨hnew.not_under_of ?_, List.forall_mem_append.mpr ⟨fun copy hc => hnew.not_under_of ?_,
        fun id hid => hnew.not_under_of ?_⟩⟩⟩
    · rw [standIn_size]
      exact hnewest a ha block h.block_lt hfirst
    · rw [h.standIn_old h.block_lt]
      exact hnewest a ha block h.block_lt hfirst
    · rw [List.mem_reverse] at hc
      rw [h.standIn_copy hc, h.standIn_old (hltNewer a ha)]
      exact h.not_copy_under hc (hltNewer a ha) (htarget a ha)
    · rw [h.standIn_old (hltOlder id hid)]
      exact hnewest a ha id (hltOlder id hid) (hrest id hid)

end Lifted

end RichDoc.Dom
