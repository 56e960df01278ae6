import RichDoc.Proofs.Dom.Runs

/-!
# Putting a node before a sibling

A node that is put before a sibling which stands in a list comes into that list, and the store stays
a forest, so that no later call takes more out of a list than the node that it names. A sibling
without a parent stands in no list; nor does a node that is put before itself, since it is unlinked
first. The links are written all the same, and then a node without a parent has a sibling: just in
these two cases what is left is no forest.
-/

namespace RichDoc.Dom

variable {dom : Dom}

/-! ### Siblings in a forest -/

/-- The links between siblings are those between neighbours in a list of children, and no way along
them comes back. -/
structure SiblingsListed (dom : Dom) : Prop where
  inverse : ∀ y z, dom.nextSibling (some y) = some z ↔ dom.prevSibling (some z) = some y
  listed : ∀ y z, dom.nextSibling (some y) = some z →
    ∃ p left right, dom.children (some p) = left ++ y :: z :: right
  ends : ∀ y, ¬Relation.TransGen (fun a b => dom.nextSibling (some a) = some b) y y

namespace WellFormed

/-- The next sibling of a node is the one behind it in the list of their parent. -/
theorem nextSibling_iff (hw : dom.WellFormed) {y z : NodeId} :
    dom.nextSibling (some y) = some z ↔
      ∃ p left right, dom.children (some p) = left ++ y :: z :: right := by
  constructor
  · intro h
    cases hp : dom.parent (some y) with
    | none =>
      rw [(hw.siblings_of_parent_none hp).2] at h
      cases h
    | some p =>
      obtain ⟨left, right, hk, -, hnext⟩ := hw.exists_split hp
      obtain ⟨right, rfl⟩ := List.head?_eq_some_iff.mp (hnext.symm.trans h)
      exact ⟨p, left, right, hk⟩
  · rintro ⟨p, left, right, hk⟩
    exact (hw.siblings_of_children hk).2

/-- The previous sibling of a node is the one before it in the list of their parent. -/
theorem prevSibling_iff (hw : dom.WellFormed) {y z : NodeId} :
    dom.prevSibling (some z) = some y ↔
      ∃ p left right, dom.children (some p) = left ++ y :: z :: right := by
  constructor
  · intro h
    cases hp : dom.parent (some z) with
    | none =>
      rw [(hw.siblings_of_parent_none hp).1] at h
      cases h
    | some p =>
      obtain ⟨left, right, hk, hprev, -⟩ := hw.exists_split hp
      obtain ⟨left, rfl⟩ := List.getLast?_eq_some_iff.mp (hprev.symm.trans h)
      exact ⟨p, left, right, by rw [hk, List.append_assoc, List.singleton_append]⟩
  · rintro ⟨p, left, right, hk⟩
    rw [← List.singleton_append, ← List.append_assoc] at hk
    rw [(hw.siblings_of_children hk).1, List.getLast?_concat]

/-- What is reached along the siblings stands further behind in the same list. -/
theorem exists_behind (hw : dom.WellFormed) {y z : NodeId}
    (h : Relation.TransGen (fun a b => dom.nextSibling (some a) = some b) y z) :
    ∃ p left between right, dom.children (some p) = left ++ y :: between ++ z :: right := by
  induction h with
  | single h =>
    obtain ⟨p, left, right, hk⟩ := hw.nextSibling_iff.mp h
    exact ⟨p, left, [], right, by rw [hk, List.append_assoc]; rfl⟩
  | @tail a z _ h ih =>
    obtain ⟨p, left, between, right, hk⟩ := ih
    obtain ⟨right, rfl⟩ :=
      List.head?_eq_some_iff.mp ((hw.siblings_of_children hk).2.symm.trans h)
    exact ⟨p, left, between ++ [a], right, by simp [hk]⟩

/-- In a forest the links of all siblings agree with the lists of children. -/
theorem siblingsListed (hw : dom.WellFormed) : dom.SiblingsListed where
  inverse _ _ := hw.nextSibling_iff.trans hw.prevSibling_iff.symm
  listed _ _ := hw.nextSibling_iff.mp
  ends y h := by
    obtain ⟨p, left, between, right, hk⟩ := hw.exists_behind h
    have hn := hw.nodup_children p
    rw [hk, List.nodup_append] at hn
    exact hn.2.2 y (List.mem_append_right _ (List.mem_cons_self ..)) y (List.mem_cons_self ..) rfl

end WellFormed

/-! ### Nodes that no call moves -/

namespace Edit

/-- The node that a call moves. -/
def moved? : Edit → Option NodeId
  | .append _ x | .insertBefore _ x | .detach x => some x
  | .create _ | .appendText _ _ => none

/-- After some calls all nodes that none of them moves are in their lists, in their order. -/
def LoseNoOther (dom : Dom) (edits : List Edit) : Prop :=
  ∀ id, let stays := fun y => decide (y < dom.size ∧ y ∉ edits.filterMap moved?)
    ((edits.foldl apply dom).children (some id)).filter stays =
      (dom.children (some id)).filter stays

end Edit

theorem filter_putBefore {q : NodeId → Bool} {x : NodeId} (hx : q x = false) (s : NodeId)
    (kids : List NodeId) : (putBefore s x kids).filter q = kids.filter q := by
  induction kids with
  | nil => rfl
  | cons y kids ih =>
    have hone : (if y = s then [x, y] else [y]).filter q = [y].filter q := by
      split
      · exact List.filter_cons_of_neg (by simp [hx])
      · rfl
    rw [putBefore, List.flatMap_cons, ← putBefore, List.filter_append, ih, hone,
      ← List.filter_append, List.singleton_append]

theorem filter_erase {q : NodeId → Bool} {x : NodeId} (hx : q x = false) {kids : List NodeId}
    (hn : kids.Nodup) : (kids.erase x).filter q = kids.filter q := by
  rw [hn.erase_eq_filter, List.filter_filter]
  refine List.filter_congr fun y _ => ?_
  by_cases hy : y = x
  · rw [hy, hx, Bool.false_and]
  · simp [hy]

namespace Edit

/-- A call leaves the nodes in their lists that it neither moves nor makes. -/
theorem filter_childrenAfter (hw : dom.WellFormed) {edit : Edit} {q : NodeId → Bool}
    (hmoved : ∀ x, edit.moved? = some x → q x = false) (hnew : q dom.size = false) (id : NodeId) :
    (edit.childrenAfter dom id).filter q = (dom.children (some id)).filter q := by
  have hn := hw.nodup_children id
  cases edit with
  | create data => rfl
  | append p x =>
    have hx := hmoved x rfl
    rw [childrenAfter]
    split
    · rw [List.filter_append, filter_erase hx hn, List.filter_singleton, hx]
      exact List.append_nil _
    · exact filter_erase hx hn
  | appendText p text =>
    rw [childrenAfter]
    split
    · rw [List.filter_append, List.filter_singleton, hnew]
      exact List.append_nil _
    · rfl
  | insertBefore s x =>
    have hx := hmoved x rfl
    exact (filter_putBefore hx s _).trans (filter_erase hx hn)
  | detach x => exact filter_erase (hmoved x rfl) hn

/-- Calls leave the nodes in their lists that they neither move nor make. -/
theorem AllAllowed.filter_children (hw : dom.WellFormed) {edits : List Edit} {q : NodeId → Bool}
    (h : AllAllowed dom edits) (hmoved : ∀ x ∈ edits.filterMap moved?, q x = false)
    (hnew : ∀ y, dom.size ≤ y → q y = false) (id : NodeId) :
    ((edits.foldl apply dom).children (some id)).filter q = (dom.children (some id)).filter q := by
  induction edits generalizing dom with
  | nil => rfl
  | cons edit rest ih =>
    have hdoes := does hw h.1
    have hrest : ∀ x ∈ rest.filterMap moved?, q x = false := fun x hx =>
      hmoved x ((List.sublist_cons_self edit rest).filterMap moved? |>.subset hx)
    have hfirst : ∀ x, edit.moved? = some x → q x = false := fun x hx =>
      hmoved x (List.mem_filterMap.mpr ⟨edit, List.mem_cons_self .., hx⟩)
    rw [List.foldl_cons, ih hdoes.wellFormed h.2 hrest fun y hy =>
      hnew y (Nat.le_trans (size_le_apply dom edit) hy), hdoes.children_eq]
    exact filter_childrenAfter hw hfirst (hnew _ (Nat.le_refl _)) id

/-- Edits that are allowed one after another take no node out of a list that they do not name. -/
theorem AllAllowed.loseNoOther (hw : dom.WellFormed) {edits : List Edit}
    (h : AllAllowed dom edits) : LoseNoOther dom edits :=
  h.filter_children hw (fun x hx => by simp [hx]) (fun y hy => by simp [Nat.not_lt.mpr hy])

end Edit

/-! ### Inserting -/

/-- A node has come into the list of a sibling, and what is left is a forest. -/
structure Inserted (dom dom' : Dom) (s x : NodeId) : Prop where
  wellFormed : dom'.WellFormed
  data_eq : ∀ link, dom'.data? link = dom.data? link
  children_eq : ∀ id, dom'.children (some id) = putBefore s x ((dom.children (some id)).erase x)
  siblings : dom'.SiblingsListed
  later : ∀ edits, Edit.AllAllowed dom' edits →
    (edits.foldl Edit.apply dom').WellFormed ∧ Edit.LoseNoOther dom' edits

namespace WellFormed

/-- A node is inserted before a sibling that is not below it. -/
theorem inserted (hw : dom.WellFormed) {p s x : NodeId} (hx : x < dom.size)
    (hps : dom.parent (some s) = some p) (hne : s ≠ x) (habove : dom.Under s x → s = x) :
    dom.Inserted (dom.insertBefore (some s) (some x)) s x := by
  have hr := hw.insertBefore hx hps hne fun hu => hne (habove (hu.head hps))
  exact ⟨hr.wellFormed, hr.data_eq, hr.children_eq, hr.wellFormed.siblingsListed,
    fun edits h => ⟨h.wellFormed hr.wellFormed, h.loseNoOther hr.wellFormed⟩⟩

/-- A node that is put before one that stands in no list gets a sibling and no parent. The sibling
is looked at after the node is unlinked, so this is also what happens when they are the same. -/
theorem loose_insertBefore (hw : dom.WellFormed) {s x : NodeId} (hs : s < dom.size)
    (hx : x < dom.size) (h : s = x ∨ dom.parent (some s) = none) :
    (dom.insertBefore (some s) (some x)).parent (some x) = none ∧
      (dom.insertBefore (some s) (some x)).nextSibling (some x) = some s := by
  have hd := hw.detachAttached x
  have hnone : (dom.detachAttached (some x)).parent (some x) = none := by
    rw [parent_detachAttached, if_pos rfl]
  have hnone' : (dom.detachAttached (some x)).parent (some s) = none := by
    rw [parent_detachAttached]
    split
    · rfl
    · exact h.resolve_left ‹_›
  have hprev := (hd.wellFormed.siblings_of_parent_none hnone').1
  have hx' : x < (dom.detachAttached (some x)).size := hd.size_eq ▸ hx
  have hget := get?_insertBefore hnone (hd.size_eq ▸ hs) (some x)
  rw [insertBefore_detachAttached, hnone', hprev, get?_of_lt hx', Option.map_some] at hget
  rw [Dom.parent, nextSibling, hget]
  simp

/-- The store is a forest after a node is put before a sibling exactly if the sibling is another
node and has a parent. Then the node comes into the list of that parent, and no later call loses
another node. Else it has a sibling and no parent. -/
theorem insertBefore_wellFormed_iff (hw : dom.WellFormed) {s x : NodeId} (hs : s < dom.size)
    (hx : x < dom.size) (habove : dom.Under s x → s = x) :
    let dom' := dom.insertBefore (some s) (some x)
    (dom'.WellFormed ↔ s ≠ x ∧ dom.parent (some s) ≠ none) ∧
      (dom'.WellFormed → dom.Inserted dom' s x) ∧
      (¬dom'.WellFormed → dom'.parent (some x) = none ∧ dom'.nextSibling (some x) = some s) := by
  by_cases h : s = x ∨ dom.parent (some s) = none
  · have hloose := hw.loose_insertBefore hs hx h
    have hnot : ¬(dom.insertBefore (some s) (some x)).WellFormed := by
      intro hw'
      have hnext := (hw'.siblings_of_parent_none hloose.1).2
      rw [hloose.2] at hnext
      cases hnext
    exact ⟨⟨fun hw' => absurd hw' hnot, fun hne => absurd h (not_or.mpr hne)⟩,
      fun hw' => absurd hw' hnot, fun _ => hloose⟩
  · obtain ⟨hne, hattached⟩ := not_or.mp h
    obtain ⟨p, hp⟩ := Option.ne_none_iff_exists'.mp hattached
    have hin := hw.inserted hx hp hne habove
    exact ⟨⟨fun _ => ⟨hne, hattached⟩, fun _ => hin.wellFormed⟩, fun _ => hin,
      fun hnot => absurd hin.wellFormed hnot⟩

end WellFormed

/-- The first of three children is put before the last one. -/
theorem WellFormed.insertBefore_wellFormed_iff_sample :
    let dom := [.create (.text "a"), .create (.text "b"), .create (.text "c"), .append 0 1,
      .append 0 2, .append 0 3].foldl Edit.apply .empty
    let dom' := dom.insertBefore (some 3) (some 1)
    dom.WellFormed ∧ 3 < dom.size ∧ 1 < dom.size ∧ ¬dom.Under 3 1 ∧ dom'.WellFormed ∧
      dom'.children (some 0) = [2, 1, 3] := by
  intro dom dom'
  have hroot : ∀ {dom : Dom} {x : NodeId}, dom.parent (some 0) = none → x ≠ 0 → ¬dom.Under 0 x :=
    not_under_of_parent_none
  have hw : dom.WellFormed := Edit.AllAllowed.wellFormed wellFormed_empty
    ⟨trivial, trivial, trivial, ⟨by decide, by decide, hroot rfl (by decide)⟩,
      ⟨by decide, by decide, hroot rfl (by decide)⟩,
      ⟨by decide, by decide, hroot rfl (by decide)⟩, trivial⟩
  have hunder : ¬dom.Under 3 1 := not_under_of_parent rfl (by decide) (hroot rfl (by decide))
  have h := hw.insertBefore_wellFormed_iff (s := 3) (x := 1) (by decide) (by decide)
    fun hu => absurd hu hunder
  exact ⟨hw, by decide, by decide, hunder, h.1.mpr ⟨by decide, by decide +kernel⟩,
    by decide +kernel⟩

/-- After a node is put before a detached one, unlinking both takes a third node out of its list. -/
theorem children_lost_behind_detached :
    let dom := [.create (.text "a"), .create (.text "b"), .create (.text "c")].foldl
      Edit.apply .empty
    let dom' := dom.insertBefore (some 1) (some 2)
    dom.WellFormed ∧ 1 < dom.size ∧ 2 < dom.size ∧ ¬dom.Under 1 2 ∧ ¬dom'.WellFormed ∧
      ([.append 0 3, .append 0 1].foldl Edit.apply dom').children (some 0) = [3, 1] ∧
      ([.append 0 3, .append 0 1, .detach 2, .detach 1].foldl Edit.apply dom').children
        (some 0) = [] := by
  intro dom dom'
  have hw : dom.WellFormed :=
    Edit.AllAllowed.wellFormed wellFormed_empty ⟨trivial, trivial, trivial, trivial⟩
  have hnot : ¬dom'.WellFormed := by
    intro hw'
    have hnext := (hw'.siblings_of_parent_none (x := 2) rfl).2
    cases hnext
  exact ⟨hw, by decide, by decide, not_under_of_parent_none rfl (by decide), hnot,
    by decide +kernel, by decide +kernel⟩

end RichDoc.Dom
