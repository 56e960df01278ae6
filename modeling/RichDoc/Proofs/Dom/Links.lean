import RichDoc.Proofs.Dom.WellFormed
import Mathlib.Data.List.Chain

/-!
# The links between children as a ring

The children of a node are linked with each other and, at both ends, with the node. Read with the
node in the place of the missing neighbours, these links are a ring: what follows the node is its
first child, and what comes before it is its last child. So the ends of a list of children need no
case of their own.
-/

namespace RichDoc.Dom

/-- The first child of a node. -/
def firstChild (dom : Dom) (link : Link) : Link := (dom.get? link).bind (·.firstChild)

/-- The sibling before a node. -/
def prevSibling (dom : Dom) (link : Link) : Link := (dom.get? link).bind (·.prevSibling)

/-- The sibling behind a node. -/
def nextSibling (dom : Dom) (link : Link) : Link := (dom.get? link).bind (·.nextSibling)

/-- What follows in the ring of a node, which is the place `none` itself. -/
def forward (dom : Dom) (p : NodeId) : Link → Link
  | none => dom.firstChild (some p)
  | some id => dom.nextSibling (some id)

/-- What comes before in the ring of a node. -/
def backward (dom : Dom) (p : NodeId) : Link → Link
  | none => dom.lastChild (some p)
  | some id => dom.prevSibling (some id)

/-- Two places of a ring are linked in both directions. -/
def Follows (dom : Dom) (p : NodeId) (a b : Link) : Prop :=
  dom.forward p a = b ∧ dom.backward p b = a

/-- The ring of a node leads through some children, in this order. -/
def Ring (dom : Dom) (p : NodeId) (kids : List NodeId) : Prop :=
  (none :: (kids.map some ++ [none])).IsChain (dom.Follows p)

variable {dom dom' : Dom}

/-- A node with a parent is there. -/
theorem lt_size_of_parent {id p : NodeId} (h : dom.parent (some id) = some p) : id < dom.size := by
  by_contra hge
  rw [parent, get?, Option.bind_some, Array.getElem?_eq_none (Nat.le_of_not_lt hge)] at h
  cases h

/-- Linked nodes are the rest of a ring, behind the place from which they are reached. -/
theorem linked_iff {p : NodeId} {before : Link} {kids : List NodeId} :
    (dom.Linked p before kids ∧ dom.forward p before = kids.head? ∧
        dom.lastChild (some p) = kids.getLast?.or before) ↔
      (∀ id ∈ kids, dom.parent (some id) = some p) ∧
        (before :: (kids.map some ++ [none])).IsChain (dom.Follows p) := by
  induction kids generalizing before with
  | nil => simp [Linked, Follows, backward]
  | cons id rest ih =>
    have hlast : (id :: rest).getLast?.or before = rest.getLast?.or (some id) := by
      rw [List.getLast?_cons]
      cases rest.getLast? <;> rfl
    rw [List.map_cons, List.cons_append, List.isChain_cons_cons, List.forall_mem_cons, hlast,
      Linked]
    constructor
    · rintro ⟨⟨⟨cell, hc, hp, hprev, hnext⟩, hlinked⟩, hforward, hback⟩
      have hget : dom.get? (some id) = some cell := hc
      have hstep : dom.forward p (some id) = rest.head? := by
        rw [forward, nextSibling, hget, Option.bind_some, hnext]
      obtain ⟨hparents, hchain⟩ := ih.mp ⟨hlinked, hstep, hback⟩
      refine ⟨⟨?_, hparents⟩, ⟨hforward, ?_⟩, hchain⟩
      · rw [parent, hget, Option.bind_some, hp]
      · rw [backward, prevSibling, hget, Option.bind_some, hprev]
    · rintro ⟨⟨hp, hparents⟩, ⟨hforward, hprev⟩, hchain⟩
      obtain ⟨hlinked, hnext, hback⟩ := ih.mpr ⟨hparents, hchain⟩
      have hid := lt_size_of_parent hp
      have hget : dom.get? (some id) = some dom.cells[id] := Array.getElem?_eq_getElem hid
      rw [parent, hget, Option.bind_some] at hp
      rw [backward, prevSibling, hget, Option.bind_some] at hprev
      rw [forward, nextSibling, hget, Option.bind_some] at hnext
      exact ⟨⟨⟨_, hget, hp, hprev, hnext⟩, hlinked⟩, hforward, hback⟩

/-- Children are the nodes whose parent is the node, and the ring leads through them. -/
theorem isChildren_iff {p : NodeId} {kids : List NodeId} :
    dom.IsChildren p kids ↔
      (∀ x, dom.parent (some x) = some p ↔ x ∈ kids) ∧ dom.Ring p kids ∧ kids.Nodup := by
  have hring := @linked_iff dom p none kids
  rw [Option.or_none] at hring
  constructor
  · intro h
    obtain ⟨hparents, hchain⟩ := hring.mp ⟨h.linked, h.first, h.last⟩
    exact ⟨fun x => ⟨h.complete x, hparents x⟩, hchain, h.nodup⟩
  · rintro ⟨hparents, hchain, hnodup⟩
    obtain ⟨hlinked, hfirst, hlast⟩ := hring.mpr ⟨fun x => (hparents x).mpr, hchain⟩
    exact ⟨hfirst, hlast, hlinked, hnodup, fun x => (hparents x).mp⟩

/-! ### Rings -/

/-- What holds between neighbours may use that the first of them is not the last of the list. -/
private theorem isChain_imp_of_mem_dropLast {α : Type} {R S : α → α → Prop} {l : List α}
    (h : l.IsChain R) (hs : ∀ a b, a ∈ l.dropLast → b ∈ l → R a b → S a b) : l.IsChain S := by
  rw [← List.isChain_reverse] at h ⊢
  refine h.imp_of_mem_tail_imp fun b a hb ha hab => ?_
  rw [List.tail_reverse, List.mem_reverse] at ha
  exact hs a b ha (List.mem_reverse.mp hb) hab

variable {p x : NodeId} {left right : List NodeId}

/-- A ring comes in two parts and the seam between them. -/
theorem ring_append_iff :
    dom.Ring p (left ++ right) ↔
      (none :: left.map some).IsChain (dom.Follows p) ∧
        (right.map some ++ [none]).IsChain (dom.Follows p) ∧
          dom.Follows p left.getLast? right.head? := by
  have hlast : (none :: left.map some).getLast? = some left.getLast? := by
    rw [List.getLast?_cons, List.getLast?_map]
    cases left.getLast? <;> rfl
  have hhead : (right.map some ++ [none]).head? = some right.head? := by
    cases right <;> rfl
  rw [Ring, List.map_append, List.append_assoc, ← List.cons_append, List.isChain_append, hlast,
    hhead]
  simp

/-- A child stands between its neighbours in the ring. -/
theorem ring_append_cons_iff :
    dom.Ring p (left ++ x :: right) ↔
      (none :: left.map some).IsChain (dom.Follows p) ∧
        (right.map some ++ [none]).IsChain (dom.Follows p) ∧
          dom.Follows p left.getLast? (some x) ∧ dom.Follows p (some x) right.head? := by
  have hhead : (right.map some ++ [none]).head? = some right.head? := by
    cases right <;> rfl
  have hsecond : ((x :: right).map some ++ [none]).IsChain (dom.Follows p) ↔
      dom.Follows p (some x) right.head? ∧
        (right.map some ++ [none]).IsChain (dom.Follows p) := by
    rw [List.map_cons, List.cons_append, List.isChain_cons, hhead]
    simp
  rw [ring_append_iff, hsecond, List.head?_cons]
  tauto

/-- The places of a ring are the node itself and its children. -/
theorem forall_mem_places {q : Link → Prop} {kids : List NodeId} :
    (∀ z ∈ none :: kids.map some, q z) ↔ q none ∧ ∀ y ∈ kids, q (some y) := by
  rw [List.forall_mem_cons, List.forall_mem_map]

/-- The places of the first nodes of a list are places of the list. -/
private theorem mem_places_left {z : Link} (h : z ∈ none :: left.map some) (right : List NodeId) :
    z ∈ none :: (left ++ right).map some := by
  rw [List.map_append]
  exact List.cons_subset_cons _ (List.subset_append_left _ _) h

/-- The places of the last nodes of a list are places of the list. -/
private theorem mem_places_right {z : Link} (h : z ∈ right.map some ++ [none])
    (left : List NodeId) : z ∈ none :: (left ++ right).map some := by
  rw [List.map_append]
  rcases List.mem_append.mp h with h | h
  · exact List.mem_cons_of_mem _ (List.mem_append_right _ h)
  · exact List.mem_cons.mpr (Or.inl (List.mem_singleton.mp h))

private theorem some_ne_getLast? {y : NodeId} (h : y ∉ left) : some y ≠ left.getLast? :=
  fun he => h (List.mem_of_getLast? he.symm)

private theorem some_ne_head? {y : NodeId} (h : y ∉ right) : some y ≠ right.head? :=
  fun he => h (List.mem_of_head? he.symm)

/-- The two parts of a ring stay linked while only the links over the seam between them change. -/
private theorem parts_of_seam (dom' : Dom)
    (hleft : (none :: left.map some).IsChain (dom.Follows p))
    (hright : (right.map some ++ [none]).IsChain (dom.Follows p))
    (hdisjoint : ∀ y ∈ left, y ∉ right)
    (hover : ∀ y ∈ left, dom.forward p left.getLast? ≠ some y)
    (hback : ∀ y ∈ right, dom.backward p right.head? ≠ some y)
    (hf : ∀ z ∈ none :: (left ++ right).map some, z ≠ left.getLast? →
      dom'.forward p z = dom.forward p z)
    (hb : ∀ z ∈ none :: (left ++ right).map some, z ≠ right.head? →
      dom'.backward p z = dom.backward p z) :
    (none :: left.map some).IsChain (dom'.Follows p) ∧
      (right.map some ++ [none]).IsChain (dom'.Follows p) := by
  constructor
  · refine hleft.imp_of_mem_tail_imp fun a b ha hbl hab => ?_
    obtain ⟨y, hy, rfl⟩ := List.mem_map.mp hbl
    have hne : a ≠ left.getLast? := by
      rintro rfl
      exact hover y hy hab.1
    constructor
    · rw [hf a (mem_places_left ha right) hne, hab.1]
    · rw [hb _ (mem_places_left (List.mem_cons_of_mem _ hbl) right)
        (some_ne_head? (hdisjoint y hy)), hab.2]
  · refine isChain_imp_of_mem_dropLast hright fun a b ha hbr hab => ?_
    rw [List.dropLast_concat] at ha
    obtain ⟨y, hy, rfl⟩ := List.mem_map.mp ha
    have hne : b ≠ right.head? := by
      rintro rfl
      exact hback y hy hab.2
    constructor
    · rw [hf _ (mem_places_right (List.mem_append_left _ ha) left)
        (some_ne_getLast? fun hl => hdisjoint y hl hy), hab.1]
    · rw [hb b (mem_places_right hbr left) hne, hab.2]

/-- The neighbour on the left of a new place is a place of the list. -/
theorem getLast?_mem_places (left right : List NodeId) :
    left.getLast? ∈ none :: (left ++ right).map some := by
  refine mem_places_left ?_ right
  cases h : left.getLast? with
  | none => exact List.mem_cons_self ..
  | some y => exact List.mem_cons_of_mem _ (List.mem_map_of_mem (List.mem_of_getLast? h))

/-- The neighbour on the right of a new place is a place of the list. -/
theorem head?_mem_places (left right : List NodeId) :
    right.head? ∈ none :: (left ++ right).map some := by
  refine mem_places_right ?_ left
  cases right with
  | nil => exact List.mem_singleton.mpr rfl
  | cons y rest => exact List.mem_cons_self ..

/-- When the neighbours of a place are linked with each other, the ring leads past it. -/
theorem Ring.cut (h : dom.Ring p (left ++ x :: right)) (hn : (left ++ x :: right).Nodup)
    (hf : ∀ z ∈ none :: (left ++ right).map some,
      dom'.forward p z = if z = left.getLast? then right.head? else dom.forward p z)
    (hb : ∀ z ∈ none :: (left ++ right).map some,
      dom'.backward p z = if z = right.head? then left.getLast? else dom.backward p z) :
    dom'.Ring p (left ++ right) := by
  obtain ⟨hleft, hright, hbefore, hafter⟩ := ring_append_cons_iff.mp h
  rw [List.nodup_append, List.nodup_cons] at hn
  obtain ⟨-, ⟨hxr, -⟩, hlr⟩ := hn
  have hdisjoint : ∀ y ∈ left, y ∉ right := fun y hl hr =>
    hlr y hl y (List.mem_cons_of_mem _ hr) rfl
  have hover : ∀ y ∈ left, dom.forward p left.getLast? ≠ some y := by
    intro y hy he
    rw [hbefore.1] at he
    exact hlr y hy x (List.mem_cons_self ..) (Option.some.inj he).symm
  have hback : ∀ y ∈ right, dom.backward p right.head? ≠ some y := by
    intro y hy he
    rw [hafter.2] at he
    exact hxr (Option.some.inj he ▸ hy)
  obtain ⟨hleft', hright'⟩ := parts_of_seam dom' hleft hright hdisjoint hover hback
    (fun z hz hne => (hf z hz).trans (if_neg hne)) (fun z hz hne => (hb z hz).trans (if_neg hne))
  refine ring_append_iff.mpr ⟨hleft', hright', ?_, ?_⟩
  · rw [hf _ (getLast?_mem_places left right), if_pos rfl]
  · rw [hb _ (head?_mem_places left right), if_pos rfl]

/-- When a new place is linked with two neighbours in both directions, the ring leads through it.
The places of the old ring are places of the new one, and none of them is the new place. -/
theorem Ring.place (h : dom.Ring p (left ++ right)) (hn : (left ++ x :: right).Nodup)
    (hf : ∀ z ∈ none :: (left ++ x :: right).map some, dom'.forward p z =
      if z = some x then right.head? else if z = left.getLast? then some x else dom.forward p z)
    (hb : ∀ z ∈ none :: (left ++ x :: right).map some, dom'.backward p z =
      if z = some x then left.getLast? else if z = right.head? then some x
      else dom.backward p z) :
    dom'.Ring p (left ++ x :: right) := by
  obtain ⟨hleft, hright, hseam⟩ := ring_append_iff.mp h
  rw [List.nodup_append, List.nodup_cons] at hn
  obtain ⟨-, ⟨hxr, -⟩, hlr⟩ := hn
  have hxl : x ∉ left := fun hx => hlr x hx x (List.mem_cons_self ..) rfl
  have hdisjoint : ∀ y ∈ left, y ∉ right := fun y hl hr =>
    hlr y hl y (List.mem_cons_of_mem _ hr) rfl
  have hover : ∀ y ∈ left, dom.forward p left.getLast? ≠ some y := by
    intro y hy he
    exact some_ne_head? (hdisjoint y hy) (hseam.1.symm.trans he).symm
  have hback : ∀ y ∈ right, dom.backward p right.head? ≠ some y := by
    intro y hy he
    exact some_ne_getLast? (fun hl => hdisjoint y hl hy) (hseam.2.symm.trans he).symm
  have hplaces : ∀ z ∈ none :: (left ++ right).map some,
      z ∈ none :: (left ++ x :: right).map some ∧ z ≠ some x := by
    intro z hz
    simp only [List.mem_cons, List.mem_map, List.mem_append] at hz ⊢
    rcases hz with rfl | ⟨y, hy, rfl⟩
    · exact ⟨Or.inl rfl, nofun⟩
    · refine ⟨Or.inr ⟨y, by tauto, rfl⟩, ?_⟩
      intro he
      obtain rfl := Option.some.inj he
      exact hy.elim hxl hxr
  obtain ⟨hleft', hright'⟩ := parts_of_seam dom' hleft hright hdisjoint hover hback
    (fun z hz hne => by rw [hf z (hplaces z hz).1, if_neg (hplaces z hz).2, if_neg hne])
    (fun z hz hne => by rw [hb z (hplaces z hz).1, if_neg (hplaces z hz).2, if_neg hne])
  have hxplace : some x ∈ none :: (left ++ x :: right).map some := by simp
  obtain ⟨hlast, hlastx⟩ := hplaces _ (getLast?_mem_places left right)
  obtain ⟨hhead, hheadx⟩ := hplaces _ (head?_mem_places left right)
  refine ring_append_cons_iff.mpr ⟨hleft', hright', ⟨?_, ?_⟩, ?_, ?_⟩
  · rw [hf _ hlast, if_neg hlastx, if_pos rfl]
  · rw [hb _ hxplace, if_pos rfl]
  · rw [hf _ hxplace, if_pos rfl]
  · rw [hb _ hhead, if_neg hheadx, if_pos rfl]

/-- A ring is the same where its links are. -/
theorem Ring.congr {kids : List NodeId} (h : dom.Ring p kids)
    (hf : ∀ z ∈ none :: kids.map some, dom'.forward p z = dom.forward p z)
    (hb : ∀ z ∈ none :: kids.map some, dom'.backward p z = dom.backward p z) :
    dom'.Ring p kids := by
  refine List.IsChain.imp_of_mem_imp (fun a b ha hb' hab => ?_) h
  have hplaces : ∀ z ∈ none :: (kids.map some ++ [none]), z ∈ none :: kids.map some := by
    intro z hz
    simp only [List.mem_cons, List.mem_append, List.not_mem_nil] at hz ⊢
    tauto
  exact ⟨(hf a (hplaces a ha)).trans hab.1, (hb b (hplaces b hb')).trans hab.2⟩

/-! ### Well-formed stores -/

/-- To be at or below a node by way of parents. -/
def Under (dom : Dom) : NodeId → NodeId → Prop :=
  Relation.ReflTransGen fun child p => dom.parent (some child) = some p

namespace WellFormed

/-- A store is well formed when each node has its children and the parents make no circle. -/
theorem of_isChildren (hc : ∀ id < dom.size, ∃ kids, dom.IsChildren id kids)
    (hp : ∀ id p, dom.parent (some id) = some p → p < dom.size)
    (ha : ∀ id < dom.size, dom.parent (some id) = none →
      dom.prevSibling (some id) = none ∧ dom.nextSibling (some id) = none)
    (hacyclic : ∀ id,
      ¬Relation.TransGen (fun child p => dom.parent (some child) = some p) id id) :
    dom.WellFormed := by
  refine ⟨hc, hp, ?_, hacyclic⟩
  intro cell hcell hnone
  obtain ⟨id, hid, rfl⟩ := Array.mem_iff_getElem.mp hcell
  have hget : dom.get? (some id) = some dom.cells[id] := Array.getElem?_eq_getElem hid
  have h := ha id hid
  rw [Dom.parent, prevSibling, nextSibling, hget] at h
  exact h hnone

/-- The listed children of a node are its children. -/
theorem isChildren (hw : dom.WellFormed) (id : NodeId) :
    dom.IsChildren id (dom.children (some id)) := by
  by_cases hid : id < dom.size
  · obtain ⟨kids, hkids⟩ := hw.children id hid
    rwa [hkids.children_eq]
  · have hnone : dom.get? (some id) = none := Array.getElem?_eq_none (Nat.le_of_not_lt hid)
    have hkids : dom.children (some id) = [] := by
      rw [Dom.children, hnone, Option.bind_none, chain]
    rw [hkids]
    refine ⟨by rw [hnone]; rfl, by rw [hnone]; rfl, trivial, List.nodup_nil, ?_⟩
    intro other h
    exact absurd (hw.parents _ _ h) hid

/-- A node that is not there has no children. -/
theorem children_of_le (hw : dom.WellFormed) {id : NodeId} (hid : dom.size ≤ id) :
    dom.children (some id) = [] := by
  by_contra hne
  obtain ⟨x, hx⟩ := List.exists_mem_of_ne_nil _ hne
  exact absurd (hw.parents x id ((hw.isChildren id).linked.parent_eq hx)) (Nat.not_lt.mpr hid)

/-- A node is in the list of its parent, and in no other one. -/
theorem mem_children_iff (hw : dom.WellFormed) {id x : NodeId} :
    x ∈ dom.children (some id) ↔ dom.parent (some x) = some id :=
  ((isChildren_iff.mp (hw.isChildren id)).1 x).symm

/-- No node is twice in a list of children. -/
theorem nodup_children (hw : dom.WellFormed) (id : NodeId) : (dom.children (some id)).Nodup :=
  (hw.isChildren id).nodup

theorem lt_size_of_mem_children (hw : dom.WellFormed) {id x : NodeId}
    (h : x ∈ dom.children (some id)) : x < dom.size :=
  lt_size_of_parent (hw.mem_children_iff.mp h)

/-- The children of a node are linked in a ring. -/
theorem ring (hw : dom.WellFormed) (id : NodeId) : dom.Ring id (dom.children (some id)) :=
  (isChildren_iff.mp (hw.isChildren id)).2.1

/-- A node without a parent has no siblings. -/
theorem siblings_of_parent_none (hw : dom.WellFormed) (h : dom.parent (some x) = none) :
    dom.prevSibling (some x) = none ∧ dom.nextSibling (some x) = none := by
  by_cases hx : x < dom.size
  · have hget : dom.get? (some x) = some dom.cells[x] := Array.getElem?_eq_getElem hx
    rw [Dom.parent, hget, Option.bind_some] at h
    rw [prevSibling, nextSibling, hget, Option.bind_some, Option.bind_some]
    exact hw.alone _ (Array.getElem_mem hx) h
  · have hnone : dom.get? (some x) = none := Array.getElem?_eq_none (Nat.le_of_not_lt hx)
    rw [prevSibling, nextSibling, hnone]
    exact ⟨rfl, rfl⟩

/-- The siblings of a child are its neighbours in the list. -/
theorem siblings_of_children (hw : dom.WellFormed)
    (hk : dom.children (some p) = left ++ x :: right) :
    dom.prevSibling (some x) = left.getLast? ∧ dom.nextSibling (some x) = right.head? := by
  have hring := hw.ring p
  rw [hk, ring_append_cons_iff] at hring
  exact ⟨hring.2.2.1.2, hring.2.2.2.1⟩

/-- Where a child stands among the children of its parent. -/
theorem exists_split (hw : dom.WellFormed) (h : dom.parent (some x) = some p) :
    ∃ left right, dom.children (some p) = left ++ x :: right ∧
      dom.prevSibling (some x) = left.getLast? ∧ dom.nextSibling (some x) = right.head? := by
  obtain ⟨left, right, hk⟩ := List.append_of_mem (hw.mem_children_iff.mpr h)
  exact ⟨left, right, hk, hw.siblings_of_children hk⟩

/-- Siblings have the same parent. -/
theorem parent_of_prevSibling (hw : dom.WellFormed) {y : NodeId}
    (h : dom.prevSibling (some x) = some y) : dom.parent (some y) = dom.parent (some x) := by
  cases hp : dom.parent (some x) with
  | none =>
    rw [(hw.siblings_of_parent_none hp).1] at h
    cases h
  | some p =>
    obtain ⟨left, right, hk, hprev, -⟩ := hw.exists_split hp
    have hy := List.mem_of_getLast? (hprev.symm.trans h)
    rw [← hw.mem_children_iff, hk]
    exact List.mem_append_left _ hy

/-- Siblings have one parent. -/
theorem parent_of_nextSibling (hw : dom.WellFormed) {y : NodeId}
    (h : dom.nextSibling (some x) = some y) : dom.parent (some y) = dom.parent (some x) := by
  cases hp : dom.parent (some x) with
  | none =>
    rw [(hw.siblings_of_parent_none hp).2] at h
    cases h
  | some p =>
    obtain ⟨left, right, hk, -, hnext⟩ := hw.exists_split hp
    have hy := List.mem_of_head? (hnext.symm.trans h)
    rw [← hw.mem_children_iff, hk]
    exact List.mem_append_right _ (List.mem_cons_of_mem _ hy)

end WellFormed

end RichDoc.Dom
