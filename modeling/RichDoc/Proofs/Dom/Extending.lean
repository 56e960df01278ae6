import RichDoc.Proofs.Dom.Moving

/-!
# Stores that are extended

While a tree is put together, new nodes are hung up and others are taken out, but the nodes that
were there do not come below each other. Such a step can be taken anywhere without closing a circle,
and what was not below a node stays so.
-/

namespace RichDoc.Dom

variable {dom dom' dom'' : Dom}

/-! ### Stores with the same links -/

namespace SameLinks

/-- Every store has its own links. -/
theorem refl (dom : Dom) : SameLinks dom dom :=
  ⟨fun _ => rfl, fun _ => rfl, fun _ => rfl, fun _ => rfl, fun _ => rfl⟩

/-- Links that stay the same twice stay the same. -/
theorem trans (h : SameLinks dom dom') (h' : SameLinks dom' dom'') : SameLinks dom dom'' :=
  ⟨fun y => (h'.parent_eq y).trans (h.parent_eq y), fun y => (h'.first_eq y).trans (h.first_eq y),
    fun y => (h'.last_eq y).trans (h.last_eq y), fun y => (h'.prev_eq y).trans (h.prev_eq y),
    fun y => (h'.next_eq y).trans (h.next_eq y)⟩

/-- What is below what depends on the links only. -/
theorem under_iff (h : SameLinks dom dom') {a b : NodeId} : dom'.Under a b ↔ dom.Under a b := by
  have heq : (fun child p => dom'.parent (some child) = some p) =
      fun child p => dom.parent (some child) = some p := by
    funext child p
    rw [h.parent_eq]
  rw [Under, heq, Under]

end SameLinks

/-- Attributes are payloads. -/
theorem sameLinks_setAttributes (dom : Dom) (link : Link) (attrs : List Attribute) :
    SameLinks dom (attrs.foldl (fun dom a => dom.setAttribute link a.name a.value) dom) := by
  induction attrs generalizing dom with
  | nil => exact .refl dom
  | cons a rest ih => exact (sameLinks_setAttribute dom link a.name a.value).trans (ih _)

/-- Setting attributes adds no node. -/
@[simp] theorem size_setAttributes (dom : Dom) (link : Link) (attrs : List Attribute) :
    (attrs.foldl (fun dom a => dom.setAttribute link a.name a.value) dom).size = dom.size := by
  induction attrs generalizing dom with
  | nil => rfl
  | cons a rest ih => exact (ih _).trans (size_setAttribute dom link a.name a.value)

/-- A new element is detached. -/
theorem sameLinks_createElement (dom : Dom) (name : QualName) (attrs : List Attribute) :
    SameLinks dom (dom.createElement name attrs).2 :=
  (sameLinks_create dom _).trans (sameLinks_setAttributes _ _ attrs)

/-- A new element is one node. -/
@[simp] theorem size_createElement (dom : Dom) (name : QualName) (attrs : List Attribute) :
    (dom.createElement name attrs).2.size = dom.size + 1 :=
  (size_setAttributes ..).trans (size_create ..)

/-- A new element comes behind all nodes. -/
@[simp] theorem id_createElement (dom : Dom) (name : QualName) (attrs : List Attribute) :
    (dom.createElement name attrs).1 = dom.size := rfl

/-! ### What is below a node that is appended -/

namespace WellFormed

/-- A new way up leads through the node that is appended. -/
theorem under_append (hw : dom.WellFormed) {p x : NodeId} (hp : p < dom.size) (hx : x < dom.size)
    (hunder : ¬dom.Under p x) {a b : NodeId} (h : (dom.append (some p) (some x)).Under a b) :
    dom.Under a b ∨ dom.Under a x ∧ dom.Under p b :=
  under_cases (fun _ _ => (hw.append hp hx hunder).parent_cases hw) h

/-- Nothing comes below another node when a node is unlinked. -/
theorem under_detach (hw : dom.WellFormed) {x a b : NodeId} (h : (dom.detach (some x)).Under a b) :
    dom.Under a b := by
  refine Relation.ReflTransGen.mono (fun y p hyp => ?_) _ _ h
  rw [← (hw.detach x).wellFormed.mem_children_iff, (hw.detach x).children_eq] at hyp
  exact hw.mem_children_iff.mp (List.mem_of_mem_erase hyp)

/-- Nothing is below a node that is not there. -/
theorem eq_of_under_new (hw : dom.WellFormed) {a x : NodeId} (h : dom.Under a x)
    (hx : dom.size ≤ x) : a = x :=
  hw.eq_of_under h (hw.children_of_le hx)

end WellFormed

/-! ### Extended stores -/

/-- A store is extended: the nodes that were there do not come below each other. -/
structure Extends (dom dom' : Dom) : Prop where
  wellFormed : dom'.WellFormed
  size_le : dom.size ≤ dom'.size
  under : ∀ a < dom.size, ∀ b < dom.size, dom'.Under a b → dom.Under a b

namespace Extends

/-- Nothing is changed. -/
theorem refl (hw : dom.WellFormed) : Extends dom dom := ⟨hw, Nat.le_refl _, fun _ _ _ _ h => h⟩

/-- A store can be extended again and again. -/
theorem trans (h : Extends dom dom') (h' : Extends dom' dom'') : Extends dom dom'' :=
  ⟨h'.wellFormed, h.size_le.trans h'.size_le, fun a ha b hb hu => h.under a ha b hb
    (h'.under a (ha.trans_le h.size_le) b (hb.trans_le h.size_le) hu)⟩

/-- New nodes that hang on nothing, and new payloads, extend a store. -/
theorem of_sameLinks (hw : dom.WellFormed) (h : SameLinks dom dom') (hsize : dom.size ≤ dom'.size) :
    Extends dom dom' :=
  ⟨h.wellFormed hw hsize, hsize, fun _ _ _ _ => h.under_iff.mp⟩

/-- A node is unlinked. -/
theorem detach (hw : dom.WellFormed) (x : NodeId) : Extends dom (dom.detach (some x)) :=
  ⟨(hw.detach x).wellFormed, (hw.detach x).size_eq.ge, fun _ _ _ _ => hw.under_detach⟩

/-- A new node without children is hung up. -/
theorem append (h : Extends dom dom') {p x : NodeId} (hp : p < dom'.size)
    (hx : x < dom'.size) (hnew : dom.size ≤ x) (hne : p ≠ x)
    (hchildren : dom'.children (some x) = []) :
    Extends dom (dom'.append (some p) (some x)) := by
  have hunder : ¬dom'.Under p x := fun hu => hne (h.wellFormed.eq_of_under hu hchildren)
  have hr := h.wellFormed.append hp hx hunder
  refine ⟨hr.wellFormed, h.size_le.trans hr.size_eq.ge, fun a ha b hb hu => ?_⟩
  rcases h.wellFormed.under_append hp hx hunder hu with hu | ⟨hax, -⟩
  · exact h.under a ha b hb hu
  · cases h.wellFormed.eq_of_under hax hchildren
    exact absurd ha (Nat.not_lt.mpr hnew)

/-- Text is added at the end of a node. -/
theorem appendText (hw : dom.WellFormed) {p : NodeId} (hp : p < dom.size) (text : String) :
    Extends dom (dom.appendText (some p) text) := by
  rw [Dom.appendText]
  split
  · exact of_sameLinks hw (sameLinks_modify dom _ _ fun _ => ⟨_, rfl⟩) (size_modify ..).ge
  · have hsame := sameLinks_create dom (.text text)
    have hlt : dom.size < (dom.create (.text text)).2.size := by simp
    refine (of_sameLinks hw hsame hlt.le).append (hp.trans hlt) hlt (Nat.le_refl _) hp.ne ?_
    exact (hsame.children_eq hw _).trans (hw.children_of_le (Nat.le_refl _))

end Extends

end RichDoc.Dom
