import RichDoc.Proofs.Dom.Links

/-!
# Editing keeps a forest a forest

A node is unlinked, or a detached node is placed below another one. What these operations do is said
first cell by cell, and then as links: unlinking makes the neighbours of the node follow each other
in the ring of their parent, and placing puts the node between two neighbours of a ring. So the list
of children changes as the list operation says, all other lists stay, and no circle is closed.
-/

namespace RichDoc.Dom

variable {dom dom' : Dom}

/-! ### Writes -/

/-- A write adds no cell. -/
@[simp] theorem size_modify (dom : Dom) (link : Link) (change : Cell → Cell) :
    (dom.modify link change).size = dom.size := by
  cases link with
  | none => rfl
  | some id => exact Array.size_modify

/-- A write changes the cell that it is aimed at. -/
theorem get?_modify (dom : Dom) (link : Link) (change : Cell → Cell) (y : Link) :
    (dom.modify link change).get? y =
      if y = link then (dom.get? y).map change else dom.get? y := by
  cases y with
  | none => cases link <;> rfl
  | some y =>
    cases link with
    | none => rfl
    | some id =>
      by_cases h : y = id
      · subst h
        simp [modify, get?, Array.getElem?_modify]
      · simp [modify, get?, Array.getElem?_modify, h, Ne.symm h]

/-- Each index below the size has its cell. -/
theorem get?_of_lt {y : NodeId} (hy : y < dom.size) : dom.get? (some y) = some dom.cells[y] :=
  Array.getElem?_eq_getElem hy

/-! ### Unlinking -/

/-- What unlinking a node does to each cell. -/
theorem get?_detach (dom : Dom) (x y : Link) :
    (dom.detach x).get? y = (dom.get? y).map fun c =>
      { c with
        parent := if y = x then none else c.parent
        prevSibling :=
          if y = x then none
          else if y = dom.nextSibling x then dom.prevSibling x else c.prevSibling
        nextSibling :=
          if y = x then none
          else if y = dom.prevSibling x then dom.nextSibling x else c.nextSibling
        firstChild :=
          if y = dom.parent x ∧ dom.prevSibling x = none then dom.nextSibling x else c.firstChild
        lastChild :=
          if y = dom.parent x ∧ dom.nextSibling x = none then dom.prevSibling x
          else c.lastChild } := by
  cases hy : dom.get? y with
  | none =>
    rw [detach]
    split
    · exact hy
    · split <;> split <;> simp [get?_modify, hy]
  | some c =>
    have hsome : y ≠ none := by
      rintro rfl
      cases hy
    cases hx : dom.get? x with
    | none =>
      have hne : y ≠ x := by
        rintro rfl
        rw [hx] at hy
        cases hy
      simp [detach, nextSibling, prevSibling, parent, hx, hy, hne, hsome]
    | some cell =>
      simp only [detach, hx, nextSibling, prevSibling, parent, Option.bind_some]
      cases cell.prevSibling <;> cases cell.nextSibling <;>
        simp only [get?_modify, hy, Option.isSome, Bool.false_eq_true, ite_true, ite_false] <;>
        split_ifs <;> simp_all

/-- Unlinking adds no node. -/
@[simp] theorem size_detach (dom : Dom) (x : Link) : (dom.detach x).size = dom.size := by
  rw [detach]
  split
  · rfl
  · split <;> split <;> simp

/-- Unlinking a node that has a parent adds no node. -/
@[simp] theorem size_detachAttached (dom : Dom) (x : Link) :
    (dom.detachAttached x).size = dom.size := by
  rw [detachAttached]
  split
  · exact size_detach dom x
  · rfl

/-- Appending adds no node. -/
@[simp] theorem size_append (dom : Dom) (parent child : Link) :
    (dom.append parent child).size = dom.size := by
  rw [append, size_modify, size_modify, size_modify, size_detachAttached]

/-- Inserting adds no node. -/
@[simp] theorem size_insertBefore (dom : Dom) (sibling node : Link) :
    (dom.insertBefore sibling node).size = dom.size := by
  rw [insertBefore]
  split
  · exact size_detachAttached dom node
  · split <;> simp

/-- Unlinking leaves the payloads. -/
@[simp] theorem data?_detach (dom : Dom) (x y : Link) : (dom.detach x).data? y = dom.data? y := by
  rw [data?, get?_detach, data?, Option.map_map]
  rfl

/-- The parent is gone from the node that is unlinked, and from no other one. -/
theorem parent_detach (dom : Dom) (x y : NodeId) :
    (dom.detach (some x)).parent (some y) = if y = x then none else dom.parent (some y) := by
  simp only [parent, get?_detach]
  cases dom.get? (some y) <;> simp

/-- The sibling behind takes over the sibling before. -/
theorem prevSibling_detach {y : NodeId} (hy : y < dom.size) (x : NodeId) :
    (dom.detach (some x)).prevSibling (some y) =
      if y = x then none
      else if some y = dom.nextSibling (some x) then dom.prevSibling (some x)
      else dom.prevSibling (some y) := by
  simp only [prevSibling, get?_detach, get?_of_lt hy, Option.map_some, Option.bind_some,
    Option.some.injEq]

/-- The sibling before takes over the sibling behind. -/
theorem nextSibling_detach {y : NodeId} (hy : y < dom.size) (x : NodeId) :
    (dom.detach (some x)).nextSibling (some y) =
      if y = x then none
      else if some y = dom.prevSibling (some x) then dom.nextSibling (some x)
      else dom.nextSibling (some y) := by
  simp only [nextSibling, get?_detach, get?_of_lt hy, Option.map_some, Option.bind_some,
    Option.some.injEq]

/-- A first child is replaced by the sibling behind it. -/
theorem firstChild_detach {q : NodeId} (hq : q < dom.size) (x : NodeId) :
    (dom.detach (some x)).firstChild (some q) =
      if some q = dom.parent (some x) ∧ dom.prevSibling (some x) = none then
        dom.nextSibling (some x)
      else dom.firstChild (some q) := by
  simp only [firstChild, get?_detach, get?_of_lt hq, Option.map_some, Option.bind_some]

/-- A last child is replaced by the sibling before it. -/
theorem lastChild_detach {q : NodeId} (hq : q < dom.size) (x : NodeId) :
    (dom.detach (some x)).lastChild (some q) =
      if some q = dom.parent (some x) ∧ dom.nextSibling (some x) = none then
        dom.prevSibling (some x)
      else dom.lastChild (some q) := by
  simp only [lastChild, get?_detach, get?_of_lt hq, Option.map_some, Option.bind_some]

/-- A ring that does not lead through a node is kept when the node is unlinked. -/
theorem WellFormed.ring_detach_of_not_mem (hw : dom.WellFormed) {x q : NodeId}
    (hq : q < dom.size) (hx : x ∉ dom.children (some q)) :
    (dom.detach (some x)).Ring q (dom.children (some q)) := by
  have hne : some q ≠ dom.parent (some x) := fun h => hx (hw.mem_children_iff.mpr h.symm)
  have hkid : ∀ y ∈ dom.children (some q), y < dom.size ∧ y ≠ x ∧
      some y ≠ dom.prevSibling (some x) ∧ some y ≠ dom.nextSibling (some x) := by
    intro y hy
    have hpy := hw.mem_children_iff.mp hy
    refine ⟨hw.lt_size_of_mem_children hy, ?_, ?_, ?_⟩
    · rintro rfl
      exact hx hy
    · intro h
      exact hne (hpy.symm.trans (hw.parent_of_prevSibling h.symm))
    · intro h
      exact hne (hpy.symm.trans (hw.parent_of_nextSibling h.symm))
  refine (hw.ring q).congr ?_ ?_
  · refine forall_mem_places.mpr ⟨?_, fun y hy => ?_⟩
    · rw [forward, firstChild_detach hq, if_neg fun h => hne h.1, forward]
    · obtain ⟨hlt, hyx, hprev, -⟩ := hkid y hy
      rw [forward, nextSibling_detach hlt, if_neg hyx, if_neg hprev, forward]
  · refine forall_mem_places.mpr ⟨?_, fun y hy => ?_⟩
    · rw [backward, lastChild_detach hq, if_neg fun h => hne h.1, backward]
    · obtain ⟨hlt, hyx, -, hnext⟩ := hkid y hy
      rw [backward, prevSibling_detach hlt, if_neg hyx, if_neg hnext, backward]

/-- The ring of its parent leads past an unlinked node. -/
theorem WellFormed.ring_detach (hw : dom.WellFormed) {x p : NodeId} {left right : List NodeId}
    (hp : p < dom.size) (hk : dom.children (some p) = left ++ x :: right) :
    (dom.detach (some x)).Ring p (left ++ right) := by
  have hring := hw.ring p
  have hnodup := hw.nodup_children p
  rw [hk] at hring hnodup
  obtain ⟨-, -, ⟨-, hprev⟩, ⟨hnext, -⟩⟩ := ring_append_cons_iff.mp hring
  have hpx : dom.parent (some x) = some p := hw.mem_children_iff.mp (by simp [hk])
  have hxk : x ∉ left ++ right := by
    have := (List.perm_middle.nodup_iff).mp hnodup
    exact (List.nodup_cons.mp this).1
  have hkid : ∀ y ∈ left ++ right, y < dom.size ∧ y ≠ x := by
    intro y hy
    have hmem : y ∈ dom.children (some p) := by
      rw [hk, List.mem_append, List.mem_cons]
      rw [List.mem_append] at hy
      tauto
    refine ⟨hw.lt_size_of_mem_children hmem, ?_⟩
    rintro rfl
    exact hxk hy
  refine hring.cut hnodup ?_ ?_
  · refine forall_mem_places.mpr ⟨?_, fun y hy => ?_⟩
    · rw [forward, firstChild_detach hp, hpx, ← hprev, ← hnext]
      simp only [true_and, eq_comm (a := none)]
      rfl
    · obtain ⟨hlt, hyx⟩ := hkid y hy
      rw [forward, nextSibling_detach hlt, if_neg hyx, ← hprev, ← hnext]
      rfl
  · refine forall_mem_places.mpr ⟨?_, fun y hy => ?_⟩
    · rw [backward, lastChild_detach hp, hpx, ← hprev, ← hnext]
      simp only [true_and, eq_comm (a := none)]
      rfl
    · obtain ⟨hlt, hyx⟩ := hkid y hy
      rw [backward, prevSibling_detach hlt, if_neg hyx, ← hprev, ← hnext]
      rfl

/-- The same nodes, with other lists of children. -/
structure Rearranges (dom dom' : Dom) (lists : NodeId → List NodeId) : Prop where
  size_eq : dom'.size = dom.size
  data_eq : ∀ link, dom'.data? link = dom.data? link
  wellFormed : dom'.WellFormed
  children_eq : ∀ id, dom'.children (some id) = lists id

namespace Rearranges

variable {dom'' : Dom} {lists lists' : NodeId → List NodeId}

/-- A forest that stays as it is. -/
theorem refl (hw : dom.WellFormed) : dom.Rearranges dom fun id => dom.children (some id) :=
  ⟨rfl, fun _ => rfl, hw, fun _ => rfl⟩

/-- Only the last lists of children count. -/
theorem trans (h : dom.Rearranges dom' lists) (h' : dom'.Rearranges dom'' lists') :
    dom.Rearranges dom'' lists' :=
  ⟨h'.size_eq.trans h.size_eq, fun link => (h'.data_eq link).trans (h.data_eq link),
    h'.wellFormed, h'.children_eq⟩

/-- The lists of children can be said in another way. -/
theorem congr (h : dom.Rearranges dom' lists) (he : ∀ id, lists id = lists' id) :
    dom.Rearranges dom' lists' :=
  ⟨h.size_eq, h.data_eq, h.wellFormed, fun id => (h.children_eq id).trans (he id)⟩

end Rearranges

/-- A node that is unlinked is missing from the children of each node. -/
theorem WellFormed.isChildren_detach (hw : dom.WellFormed) (x : NodeId) {q : NodeId}
    (hq : q < dom.size) :
    (dom.detach (some x)).IsChildren q ((dom.children (some q)).erase x) := by
  refine isChildren_iff.mpr ⟨?_, ?_, (hw.nodup_children q).erase x⟩
  · intro y
    rw [parent_detach, (hw.nodup_children q).mem_erase_iff, hw.mem_children_iff]
    split
    · simp_all
    · simp_all
  · by_cases hx : x ∈ dom.children (some q)
    · obtain ⟨left, right, hk⟩ := List.append_of_mem hx
      have hxl : x ∉ left := by
        have hn := hw.nodup_children q
        rw [hk, List.nodup_append] at hn
        intro hmem
        exact hn.2.2 x hmem x (List.mem_cons_self ..) rfl
      rw [hk, List.erase_append_right _ hxl, List.erase_cons_head]
      exact hw.ring_detach hq hk
    · rw [List.erase_of_not_mem hx]
      exact hw.ring_detach_of_not_mem hq hx

/-- The lists of children are known when they are known for the nodes that are there. -/
theorem Rearranges.of_isChildren {lists : NodeId → List NodeId} (hsize : dom'.size = dom.size)
    (hdata : ∀ link, dom'.data? link = dom.data? link) (hwf : dom'.WellFormed)
    (hc : ∀ q < dom.size, dom'.IsChildren q (lists q))
    (hnone : ∀ q, dom.size ≤ q → lists q = []) : dom.Rearranges dom' lists := by
  refine ⟨hsize, hdata, hwf, ?_⟩
  intro q
  by_cases hq : q < dom.size
  · exact (hc q hq).children_eq
  · rw [hwf.children_of_le (hsize ▸ Nat.le_of_not_lt hq), hnone q (Nat.le_of_not_lt hq)]

/-- An unlinked node leaves the list that it was in, and nothing else changes. -/
theorem WellFormed.detach (hw : dom.WellFormed) (x : NodeId) :
    dom.Rearranges (dom.detach (some x)) fun id => (dom.children (some id)).erase x := by
  have hparent : ∀ y p, (dom.detach (some x)).parent (some y) = some p →
      dom.parent (some y) = some p := by
    intro y p h
    rw [parent_detach] at h
    split at h
    · cases h
    · exact h
  refine .of_isChildren (size_detach ..) (data?_detach dom (some x)) ?_
    (fun q hq => hw.isChildren_detach x hq) (fun q hq => by rw [hw.children_of_le hq]; rfl)
  refine .of_isChildren ?_ ?_ ?_ ?_
  · intro q hq
    exact ⟨_, hw.isChildren_detach x (size_detach dom _ ▸ hq)⟩
  · intro y p h
    rw [size_detach]
    exact hw.parents y p (hparent y p h)
  · intro y hy h
    rw [size_detach] at hy
    rw [prevSibling_detach hy, nextSibling_detach hy]
    by_cases hyx : y = x
    · rw [if_pos hyx, if_pos hyx]
      exact ⟨rfl, rfl⟩
    · rw [parent_detach, if_neg hyx] at h
      obtain ⟨hprev, hnext⟩ := hw.siblings_of_parent_none h
      rw [if_neg hyx, if_neg hyx, hprev, hnext]
      constructor
      · split
        · rename_i hsib
          have hpx := hw.parent_of_nextSibling hsib.symm
          exact (hw.siblings_of_parent_none (hpx.symm.trans h)).1
        · rfl
      · split
        · rename_i hsib
          have hpx := hw.parent_of_prevSibling hsib.symm
          exact (hw.siblings_of_parent_none (hpx.symm.trans h)).2
        · rfl
  · intro y h
    exact hw.acyclic y (Relation.TransGen.mono hparent _ _ h)

/-- A node is unlinked unless it is already. -/
theorem WellFormed.detachAttached (hw : dom.WellFormed) (x : NodeId) :
    dom.Rearranges (dom.detachAttached (some x)) fun id => (dom.children (some id)).erase x := by
  rw [Dom.detachAttached]
  split
  · exact hw.detach x
  · rename_i hnone
    refine (Rearranges.refl hw).congr fun id => ?_
    rw [List.erase_of_not_mem]
    intro hx
    rw [hw.mem_children_iff.mp hx] at hnone
    exact hnone rfl

/-- A node that is unlinked if it is attached has no parent then. -/
theorem parent_detachAttached (dom : Dom) (x y : NodeId) :
    (dom.detachAttached (some x)).parent (some y) =
      if y = x then none else dom.parent (some y) := by
  rw [detachAttached]
  split
  · exact parent_detach dom x y
  · rename_i hnone
    split
    · rename_i hyx
      rw [hyx]
      simpa using hnone
    · rfl

/-! ### Placing -/

/-- What placing a detached node below another, between two siblings, does to the links. -/
structure Placed (dom dom' : Dom) (p x : NodeId) (before after : Link) : Prop where
  size_eq : dom'.size = dom.size
  data_eq : ∀ link, dom'.data? link = dom.data? link
  parent_eq : ∀ y, dom'.parent (some y) = if y = x then some p else dom.parent (some y)
  next_eq : ∀ y < dom.size, dom'.nextSibling (some y) =
    if y = x then after else if some y = before then some x else dom.nextSibling (some y)
  prev_eq : ∀ y < dom.size, dom'.prevSibling (some y) =
    if y = x then before else if some y = after then some x else dom.prevSibling (some y)
  first_eq : ∀ q < dom.size, dom'.firstChild (some q) =
    if q = p ∧ before = none then some x else dom.firstChild (some q)
  last_eq : ∀ q < dom.size, dom'.lastChild (some q) =
    if q = p ∧ after = none then some x else dom.lastChild (some q)

/-- A way up from a node either was there before the node `x` was put below `p`, or it leads through
the new step. -/
theorem under_cases {R S : NodeId → NodeId → Prop} {x p : NodeId}
    (hs : ∀ a b, S a b → R a b ∨ a = x ∧ b = p) {a b : NodeId} (h : Relation.ReflTransGen S a b) :
    Relation.ReflTransGen R a b ∨ Relation.ReflTransGen R a x ∧ Relation.ReflTransGen R p b := by
  induction h using Relation.ReflTransGen.head_induction_on with
  | refl => exact Or.inl .refl
  | head hac _ ih =>
    rcases hs _ _ hac with hac | ⟨rfl, rfl⟩
    · exact ih.imp (.head hac) fun ⟨hcx, hpb⟩ => ⟨.head hac hcx, hpb⟩
    · exact Or.inr ⟨.refl, ih.elim id And.right⟩

/-- A node that is put below one that is not below it closes no circle. -/
theorem acyclic_of_placed {R S : NodeId → NodeId → Prop} {x p : NodeId}
    (hs : ∀ a b, S a b → R a b ∨ a = x ∧ b = p) (hp : ¬Relation.ReflTransGen R p x)
    (hr : ∀ a, ¬Relation.TransGen R a a) (a : NodeId) : ¬Relation.TransGen S a a := by
  intro h
  obtain ⟨c, hac, hca⟩ := Relation.TransGen.head'_iff.mp h
  rcases hs _ _ hac with hac | ⟨rfl, rfl⟩
  · rcases under_cases hs hca with hca | ⟨hcx, hpa⟩
    · exact hr a (Relation.TransGen.head' hac hca)
    · exact hp (hpa.trans (.head hac hcx))
  · rcases under_cases hs hca with hca | ⟨-, hpa⟩
    · exact hp hca
    · exact hp hpa

namespace Placed

variable {p x : NodeId} {left right : List NodeId}

/-- The ring of the node above leads through the placed node. -/
theorem ring (h : dom.Placed dom' p x left.getLast? right.head?) (hw : dom.WellFormed)
    (hx : x < dom.size) (hp : p < dom.size) (hk : dom.children (some p) = left ++ right)
    (hn : (left ++ x :: right).Nodup) : dom'.Ring p (left ++ x :: right) := by
  have hring := hw.ring p
  rw [hk] at hring
  have hlt : ∀ y ∈ left ++ x :: right, y < dom.size := by
    intro y hy
    by_cases hyx : y = x
    · rwa [hyx]
    · have hmem : y ∈ dom.children (some p) := by
        rw [hk, List.mem_append]
        rw [List.mem_append, List.mem_cons] at hy
        tauto
      exact hw.lt_size_of_mem_children hmem
  refine hring.place hn ?_ ?_
  · refine forall_mem_places.mpr ⟨?_, fun y hy => ?_⟩
    · rw [forward, h.first_eq p hp]
      simp only [true_and, eq_comm (a := none), reduceCtorEq, ite_false]
      rfl
    · rw [forward, h.next_eq y (hlt y hy)]
      simp only [Option.some.injEq]
      rfl
  · refine forall_mem_places.mpr ⟨?_, fun y hy => ?_⟩
    · rw [backward, h.last_eq p hp]
      simp only [true_and, eq_comm (a := none), reduceCtorEq, ite_false]
      rfl
    · rw [backward, h.prev_eq y (hlt y hy)]
      simp only [Option.some.injEq]
      rfl

/-- The rings of other nodes are kept. -/
theorem ring_of_ne (h : dom.Placed dom' p x left.getLast? right.head?) (hw : dom.WellFormed)
    (hx : dom.parent (some x) = none) (hk : dom.children (some p) = left ++ right)
    {q : NodeId} (hq : q < dom.size) (hqp : q ≠ p) : dom'.Ring q (dom.children (some q)) := by
  have hkid : ∀ y ∈ dom.children (some q),
      y < dom.size ∧ y ≠ x ∧ some y ≠ left.getLast? ∧ some y ≠ right.head? := by
    intro y hy
    have hpy := hw.mem_children_iff.mp hy
    have hother : y ∉ left ++ right := by
      rw [← hk, hw.mem_children_iff, hpy]
      exact fun he => hqp (Option.some.inj he)
    rw [List.mem_append, not_or] at hother
    refine ⟨hw.lt_size_of_mem_children hy, ?_, ?_, ?_⟩
    · rintro rfl
      rw [hx] at hpy
      cases hpy
    · exact fun he => hother.1 (List.mem_of_getLast? he.symm)
    · exact fun he => hother.2 (List.mem_of_head? he.symm)
  refine (hw.ring q).congr ?_ ?_
  · refine forall_mem_places.mpr ⟨?_, fun y hy => ?_⟩
    · rw [forward, h.first_eq q hq, if_neg fun h => hqp h.1, forward]
    · obtain ⟨hlt, hyx, hlast, -⟩ := hkid y hy
      rw [forward, h.next_eq y hlt, if_neg hyx, if_neg hlast, forward]
  · refine forall_mem_places.mpr ⟨?_, fun y hy => ?_⟩
    · rw [backward, h.last_eq q hq, if_neg fun h => hqp h.1, backward]
    · obtain ⟨hlt, hyx, -, hhead⟩ := hkid y hy
      rw [backward, h.prev_eq y hlt, if_neg hyx, if_neg hhead, backward]

/-- A detached node that is placed where it closes no circle is put into the list of one node, and
nothing else changes. -/
theorem rearranges (left right : List NodeId)
    (h : dom.Placed dom' p x left.getLast? right.head?) (hw : dom.WellFormed)
    (hx : x < dom.size) (hp : p < dom.size) (hdetached : dom.parent (some x) = none)
    (hk : dom.children (some p) = left ++ right) (hunder : ¬dom.Under p x) :
    dom.Rearranges dom' fun id =>
      if id = p then left ++ x :: right else dom.children (some id) := by
  have hxk : x ∉ left ++ right := by
    rw [← hk, hw.mem_children_iff, hdetached]
    nofun
  have hnodup : (left ++ x :: right).Nodup := by
    rw [List.perm_middle.nodup_iff, List.nodup_cons, ← hk]
    exact ⟨hk ▸ hxk, hw.nodup_children p⟩
  have hparent : ∀ y q, dom'.parent (some y) = some q →
      dom.parent (some y) = some q ∨ y = x ∧ q = p := by
    intro y q hyq
    rw [h.parent_eq y] at hyq
    split at hyq
    · exact Or.inr ⟨‹_›, (Option.some.inj hyq).symm⟩
    · exact Or.inl hyq
  have hkids : ∀ q < dom.size, dom'.IsChildren q
      (if q = p then left ++ x :: right else dom.children (some q)) := by
    intro q hq
    rw [isChildren_iff]
    by_cases hqp : q = p
    · subst hqp
      rw [if_pos rfl]
      refine ⟨fun y => ?_, h.ring hw hx hp hk hnodup, hnodup⟩
      rw [h.parent_eq, List.perm_middle.mem_iff, List.mem_cons, ← hk, hw.mem_children_iff]
      split <;> simp_all
    · rw [if_neg hqp]
      refine ⟨fun y => ?_, h.ring_of_ne hw hdetached hk hq hqp, hw.nodup_children q⟩
      rw [h.parent_eq, hw.mem_children_iff]
      split
      · rename_i hyx
        rw [hyx, hdetached]
        simp [Ne.symm hqp]
      · rfl
  refine .of_isChildren h.size_eq h.data_eq ?_ hkids fun q hq => ?_
  · refine .of_isChildren ?_ ?_ ?_ ?_
    · intro q hq
      exact ⟨_, hkids q (h.size_eq ▸ hq)⟩
    · intro y q hyq
      rw [h.size_eq]
      rcases hparent y q hyq with hyq | ⟨-, rfl⟩
      · exact hw.parents y q hyq
      · exact hp
    · intro y hy hnone
      rw [h.size_eq] at hy
      rw [h.parent_eq y] at hnone
      split at hnone
      · cases hnone
      · rename_i hyx
        have hkid : some y ≠ left.getLast? ∧ some y ≠ right.head? := by
          have hy : y ∉ left ++ right := by
            rw [← hk, hw.mem_children_iff, hnone]
            nofun
          rw [List.mem_append, not_or] at hy
          exact ⟨fun he => hy.1 (List.mem_of_getLast? he.symm),
            fun he => hy.2 (List.mem_of_head? he.symm)⟩
        rw [h.prev_eq y hy, h.next_eq y hy, if_neg hyx, if_neg hyx, if_neg hkid.1, if_neg hkid.2]
        exact hw.siblings_of_parent_none hnone
    · exact acyclic_of_placed hparent hunder hw.acyclic
  · have hqp : q ≠ p := by
      rintro rfl
      exact absurd hp (Nat.not_lt.mpr hq)
    rw [if_neg hqp, hw.children_of_le hq]

end Placed

/-! ### Appending -/

/-- A node without a parent is left alone. -/
theorem detachAttached_of_detached {x : Link} (hx : dom.parent x = none) :
    dom.detachAttached x = dom := by
  rw [detachAttached, hx]
  rfl

/-- What appending a detached node does to each cell. -/
theorem get?_append {x : NodeId} (hx : dom.parent (some x) = none) (p : NodeId) (y : Link) :
    (dom.append (some p) (some x)).get? y = (dom.get? y).map fun c =>
      { c with
        parent := if y = some x then some p else c.parent
        prevSibling := if y = some x then dom.lastChild (some p) else c.prevSibling
        nextSibling :=
          if y = dom.lastChild (some p) then some x else if y = some x then none else c.nextSibling
        firstChild := if y = some p ∧ c.firstChild = none then some x else c.firstChild
        lastChild := if y = some p then some x else c.lastChild } := by
  cases hy : dom.get? y with
  | none =>
    simp only [append, detachAttached_of_detached hx, get?_modify, hy]
    split_ifs <;> rfl
  | some c =>
    have hsome : y ≠ none := by
      rintro rfl
      cases hy
    simp only [append, detachAttached_of_detached hx, get?_modify, hy, Option.isNone_iff_eq_none]
    split_ifs <;> simp_all

namespace WellFormed

/-- The link to the last child leads to the last of the children. -/
theorem lastChild_eq (hw : dom.WellFormed) (p : NodeId) :
    dom.lastChild (some p) = (dom.children (some p)).getLast? := (hw.isChildren p).last

/-- The link to the first child leads to the first of the children. -/
theorem firstChild_eq (hw : dom.WellFormed) (p : NodeId) :
    dom.firstChild (some p) = (dom.children (some p)).head? := (hw.isChildren p).first

/-- A detached node is no neighbour of anything. -/
theorem ne_lastChild (hw : dom.WellFormed) {x : NodeId} (hx : dom.parent (some x) = none)
    (p : NodeId) : some x ≠ dom.lastChild (some p) := by
  intro he
  rw [hw.lastChild_eq] at he
  have hp := hw.mem_children_iff.mp (List.mem_of_getLast? he.symm)
  rw [hx] at hp
  cases hp

/-- Appending a detached node places it behind the last child. -/
theorem placed_append (hw : dom.WellFormed) {p x : NodeId} (hx : dom.parent (some x) = none)
    (hlt : x < dom.size) :
    dom.Placed (dom.append (some p) (some x)) p x (dom.children (some p)).getLast? none := by
  rw [← hw.lastChild_eq]
  refine ⟨?_, ?_, ?_, ?_, ?_, ?_, ?_⟩
  · simp [append, detachAttached_of_detached hx]
  · intro link
    rw [data?, get?_append hx, data?, Option.map_map]
    rfl
  · intro y
    simp only [Dom.parent, get?_append hx]
    by_cases hyx : y = x
    · subst hyx
      simp [get?_of_lt hlt]
    · cases dom.get? (some y) <;> simp [hyx]
  · intro y hy
    simp only [nextSibling, get?_append hx, get?_of_lt hy, Option.map_some, Option.bind_some,
      Option.some.injEq]
    by_cases hyx : y = x
    · rw [if_neg, if_pos hyx, if_pos hyx]
      exact hyx ▸ hw.ne_lastChild hx p
    · rw [if_neg hyx, if_neg hyx]
  · intro y hy
    simp only [prevSibling, get?_append hx, get?_of_lt hy, Option.map_some, Option.bind_some,
      Option.some.injEq, reduceCtorEq, ite_false]
  · intro q hq
    have hempty : dom.firstChild (some q) = none ↔ dom.lastChild (some q) = none := by
      rw [hw.firstChild_eq, hw.lastChild_eq, List.head?_eq_none_iff, List.getLast?_eq_none_iff]
    have hget : dom.firstChild (some q) = dom.cells[q].firstChild := by
      rw [firstChild, get?_of_lt hq, Option.bind_some]
    simp only [firstChild, get?_append hx, get?_of_lt hq, Option.map_some, Option.bind_some,
      Option.some.injEq]
    rw [← hget]
    by_cases hqp : q = p
    · subst hqp
      simp only [hempty, true_and]
    · simp only [hqp, false_and, ite_false]
  · intro q hq
    simp only [lastChild, get?_append hx, get?_of_lt hq, Option.map_some, Option.bind_some,
      Option.some.injEq, and_true]

/-- Unlinking a node puts nothing below it. -/
theorem under_of_detach {p x : NodeId} (h : (dom.detachAttached (some x)).Under p x) :
    dom.Under p x := by
  refine Relation.ReflTransGen.mono (fun a b hab => ?_) _ _ h
  rw [parent_detachAttached] at hab
  split at hab
  · cases hab
  · exact hab

/-- Appending a node takes it out of the list that it was in and puts it at the end of another. -/
theorem append (hw : dom.WellFormed) {p x : NodeId} (hp : p < dom.size) (hx : x < dom.size)
    (hunder : ¬dom.Under p x) :
    dom.Rearranges (dom.append (some p) (some x)) fun id =>
      if id = p then (dom.children (some id)).erase x ++ [x]
      else (dom.children (some id)).erase x := by
  have hd := hw.detachAttached x
  have hnone : (dom.detachAttached (some x)).parent (some x) = none := by
    rw [parent_detachAttached, if_pos rfl]
  have hplaced := hd.wellFormed.placed_append (p := p) hnone (hd.size_eq ▸ hx)
  have hsame : (dom.detachAttached (some x)).append (some p) (some x) =
      dom.append (some p) (some x) := by
    rw [Dom.append, Dom.append, detachAttached_of_detached hnone]
  have h := hplaced.rearranges ((dom.detachAttached (some x)).children (some p)) []
    hd.wellFormed (hd.size_eq ▸ hx) (hd.size_eq ▸ hp) hnone
    (List.append_nil _).symm (fun hu => hunder (under_of_detach hu))
  rw [hsame] at h
  refine (hd.trans h).congr fun id => ?_
  by_cases hid : id = p
  · rw [if_pos hid, if_pos hid, hid, hd.children_eq]
  · rw [if_neg hid, if_neg hid, hd.children_eq]

end WellFormed

/-! ### Inserting -/

/-- What inserting a detached node before a sibling does to each cell. -/
theorem get?_insertBefore {s x : NodeId} (hx : dom.parent (some x) = none) (hs : s < dom.size)
    (y : Link) :
    (dom.insertBefore (some s) (some x)).get? y = (dom.get? y).map fun c =>
      { c with
        parent := if y = some x then dom.parent (some s) else c.parent
        prevSibling :=
          if y = some s then some x
          else if y = some x then dom.prevSibling (some s) else c.prevSibling
        nextSibling :=
          if y = dom.prevSibling (some s) then some x
          else if y = some x then some s else c.nextSibling
        firstChild :=
          if y = dom.parent (some s) ∧ dom.prevSibling (some s) = none then some x
          else c.firstChild } := by
  have hget := get?_of_lt hs
  have hprev : dom.prevSibling (some s) = dom.cells[s].prevSibling := by
    rw [prevSibling, hget, Option.bind_some]
  have hparent : dom.parent (some s) = dom.cells[s].parent := by
    rw [parent, hget, Option.bind_some]
  rw [insertBefore, detachAttached_of_detached hx, hget, hprev, hparent]
  dsimp only
  generalize dom.cells[s].prevSibling = before
  generalize dom.cells[s].parent = above
  cases hy : dom.get? y with
  | none => split <;> simp only [get?_modify, hy] <;> split_ifs <;> rfl
  | some c =>
    have hsome : y ≠ none := by
      rintro rfl
      cases hy
    cases before <;>
      simp only [get?_modify, hy, Option.isSome, Bool.false_eq_true, ite_true, ite_false] <;>
      split_ifs <;> simp_all

namespace WellFormed

/-- Inserting a detached node places it directly before the sibling. -/
theorem placed_insertBefore (hw : dom.WellFormed) {p s x : NodeId} {left right : List NodeId}
    (hx : dom.parent (some x) = none) (hlt : x < dom.size)
    (hk : dom.children (some p) = left ++ s :: right) :
    dom.Placed (dom.insertBefore (some s) (some x)) p x left.getLast? (some s) := by
  have hps : dom.parent (some s) = some p := hw.mem_children_iff.mp (by simp [hk])
  have hs := lt_size_of_parent hps
  have hring := hw.ring p
  rw [hk] at hring
  have hprev : dom.prevSibling (some s) = left.getLast? := (ring_append_cons_iff.mp hring).2.2.1.2
  have hne : x ≠ s := by
    rintro rfl
    rw [hx] at hps
    cases hps
  have hnl : some x ≠ left.getLast? := by
    intro he
    have hmem : x ∈ dom.children (some p) := by
      rw [hk]
      exact List.mem_append_left _ (List.mem_of_getLast? he.symm)
    rw [hw.mem_children_iff, hx] at hmem
    cases hmem
  refine ⟨?_, ?_, ?_, ?_, ?_, ?_, ?_⟩
  · rw [insertBefore, detachAttached_of_detached hx, get?_of_lt hs]
    dsimp only
    split <;> simp
  · intro link
    rw [data?, get?_insertBefore hx hs, data?, Option.map_map]
    rfl
  · intro y
    simp only [Dom.parent, get?_insertBefore hx hs]
    by_cases hyx : y = x
    · subst hyx
      rw [Dom.parent] at hps
      simp [get?_of_lt hlt, hps]
    · cases dom.get? (some y) <;> simp [hyx]
  · intro y hy
    have hget : dom.nextSibling (some y) = dom.cells[y].nextSibling := by
      rw [nextSibling, get?_of_lt hy, Option.bind_some]
    rw [nextSibling, get?_insertBefore hx hs, get?_of_lt hy, Option.map_some, Option.bind_some,
      hget, hprev]
    simp only [Option.some.injEq]
    by_cases hyx : y = x
    · rw [if_neg (hyx ▸ hnl), if_pos hyx, if_pos hyx]
    · rw [if_neg hyx, if_neg hyx]
  · intro y hy
    have hget : dom.prevSibling (some y) = dom.cells[y].prevSibling := by
      rw [prevSibling, get?_of_lt hy, Option.bind_some]
    rw [prevSibling, get?_insertBefore hx hs, get?_of_lt hy, Option.map_some, Option.bind_some,
      hget, hprev]
    simp only [Option.some.injEq]
    by_cases hyx : y = x
    · rw [if_neg (hyx ▸ hne), if_pos hyx, if_pos hyx]
    · rw [if_neg hyx, if_neg hyx]
  · intro q hq
    have hget : dom.firstChild (some q) = dom.cells[q].firstChild := by
      rw [firstChild, get?_of_lt hq, Option.bind_some]
    rw [firstChild, get?_insertBefore hx hs, get?_of_lt hq, Option.map_some, Option.bind_some,
      hget, hprev, hps]
    simp only [Option.some.injEq]
  · intro q hq
    simp only [lastChild, get?_insertBefore hx hs, get?_of_lt hq, Option.map_some,
      Option.bind_some, reduceCtorEq, and_false, ite_false]

end WellFormed

/-- A list in which a node stands directly before another one. -/
def putBefore (s x : NodeId) (kids : List NodeId) : List NodeId :=
  kids.flatMap fun y => if y = s then [x, y] else [y]

/-- Nothing is put before a node that is not in the list. -/
theorem putBefore_of_not_mem {s : NodeId} {kids : List NodeId} (h : s ∉ kids) (x : NodeId) :
    putBefore s x kids = kids := by
  induction kids with
  | nil => rfl
  | cons y kids ih =>
    rw [List.mem_cons, not_or] at h
    rw [putBefore, List.flatMap_cons, if_neg (Ne.symm h.1), ← putBefore, ih h.2]
    rfl

/-- A node is put into the one place before another. -/
theorem putBefore_append_cons {s : NodeId} {left right : List NodeId} (hl : s ∉ left)
    (hr : s ∉ right) (x : NodeId) :
    putBefore s x (left ++ s :: right) = left ++ x :: s :: right := by
  have hleft := putBefore_of_not_mem hl x
  have hright := putBefore_of_not_mem hr x
  rw [putBefore] at hleft hright
  rw [putBefore, List.flatMap_append, List.flatMap_cons, if_pos rfl, hleft, hright]
  rfl

/-- Inserting a node begins with unlinking it. -/
theorem insertBefore_detachAttached (dom : Dom) (s x : NodeId) :
    (dom.detachAttached (some x)).insertBefore (some s) (some x) =
      dom.insertBefore (some s) (some x) := by
  have hnone : (dom.detachAttached (some x)).parent (some x) = none := by
    rw [parent_detachAttached, if_pos rfl]
  rw [Dom.insertBefore, Dom.insertBefore, detachAttached_of_detached hnone]

/-- Inserting a node takes it out of the list that it was in and puts it before its new sibling. -/
theorem WellFormed.insertBefore (hw : dom.WellFormed) {p s x : NodeId} (hx : x < dom.size)
    (hps : dom.parent (some s) = some p) (hne : s ≠ x) (hunder : ¬dom.Under p x) :
    dom.Rearranges (dom.insertBefore (some s) (some x)) fun id =>
      putBefore s x ((dom.children (some id)).erase x) := by
  have hd := hw.detachAttached x
  have hnone : (dom.detachAttached (some x)).parent (some x) = none := by
    rw [parent_detachAttached, if_pos rfl]
  have hps' : (dom.detachAttached (some x)).parent (some s) = some p := by
    rw [parent_detachAttached, if_neg hne, hps]
  obtain ⟨left, right, hk, -⟩ := hd.wellFormed.exists_split hps'
  have hplaced := hd.wellFormed.placed_insertBefore hnone (hd.size_eq ▸ hx) hk
  have h := hplaced.rearranges left (s :: right) hd.wellFormed (hd.size_eq ▸ hx)
    (hd.wellFormed.parents s p hps') hnone hk (fun hu => hunder (under_of_detach hu))
  rw [insertBefore_detachAttached] at h
  refine (hd.trans h).congr fun id => ?_
  rw [← hd.children_eq id]
  by_cases hid : id = p
  · have hn := hd.wellFormed.nodup_children p
    rw [hk, List.perm_middle.nodup_iff, List.nodup_cons, List.mem_append, not_or] at hn
    rw [if_pos hid, hid, hk, putBefore_append_cons hn.1.1 hn.1.2]
  · rw [if_neg hid, putBefore_of_not_mem]
    intro hs
    rw [hd.wellFormed.mem_children_iff, hps'] at hs
    exact hid (Option.some.inj hs).symm

/-! ### New nodes -/

/-- Two stores have the same links. -/
structure SameLinks (dom dom' : Dom) : Prop where
  parent_eq : ∀ y, dom'.parent y = dom.parent y
  first_eq : ∀ y, dom'.firstChild y = dom.firstChild y
  last_eq : ∀ y, dom'.lastChild y = dom.lastChild y
  prev_eq : ∀ y, dom'.prevSibling y = dom.prevSibling y
  next_eq : ∀ y, dom'.nextSibling y = dom.nextSibling y

namespace SameLinks

/-- The same links lead through the same children. -/
theorem isChildren (h : SameLinks dom dom') {id : NodeId} {kids : List NodeId}
    (hk : dom.IsChildren id kids) : dom'.IsChildren id kids := by
  obtain ⟨hparents, hring, hnodup⟩ := isChildren_iff.mp hk
  refine isChildren_iff.mpr ⟨fun x => ?_, hring.congr ?_ ?_, hnodup⟩
  · rw [h.parent_eq]
    exact hparents x
  · intro z _
    cases z with
    | none => exact h.first_eq _
    | some y => exact h.next_eq _
  · intro z _
    cases z with
    | none => exact h.last_eq _
    | some y => exact h.prev_eq _

/-- The same links list the same children. -/
theorem children_eq (h : SameLinks dom dom') (hw : dom.WellFormed) (id : NodeId) :
    dom'.children (some id) = dom.children (some id) :=
  (h.isChildren (hw.isChildren id)).children_eq

/-- The same links describe a forest again. -/
theorem wellFormed (h : SameLinks dom dom') (hw : dom.WellFormed) (hsize : dom.size ≤ dom'.size) :
    dom'.WellFormed := by
  refine .of_isChildren ?_ ?_ ?_ ?_
  · intro id _
    exact ⟨_, h.isChildren (hw.isChildren id)⟩
  · intro id p hp
    rw [h.parent_eq] at hp
    exact Nat.lt_of_lt_of_le (hw.parents id p hp) hsize
  · intro id _ hnone
    rw [h.parent_eq] at hnone
    rw [h.prev_eq, h.next_eq]
    exact hw.siblings_of_parent_none hnone
  · intro id hcircle
    refine hw.acyclic id (Relation.TransGen.mono (fun a b hab => ?_) _ _ hcircle)
    rwa [h.parent_eq] at hab

end SameLinks

/-- A node is added. -/
@[simp] theorem size_create (dom : Dom) (data : NodeData) :
    (dom.create data).2.size = dom.size + 1 := Array.size_push _

/-- A new node is detached, and the others are as they were. -/
theorem get?_create (dom : Dom) (data : NodeData) (id : NodeId) :
    (dom.create data).2.get? (some id) =
      if id = dom.size then some (.detached data) else dom.get? (some id) := by
  rw [create, get?, Option.bind_some, get?, Option.bind_some]
  exact Array.getElem?_push

/-- A new node hangs on nothing, and nothing hangs on it. -/
theorem sameLinks_create (dom : Dom) (data : NodeData) : SameLinks dom (dom.create data).2 := by
  have hnew : dom.get? (some dom.size) = none := Array.getElem?_eq_none (Nat.le_refl _)
  have hlink : ∀ (link : Cell → Link), link (.detached data) = none →
      ∀ y, ((dom.create data).2.get? y).bind link = (dom.get? y).bind link := by
    intro link hnone y
    cases y with
    | none => rfl
    | some id =>
      rw [get?_create]
      split
      · rename_i hid
        rw [hid, hnew, Option.bind_some, hnone]
        rfl
      · rfl
  exact ⟨hlink _ rfl, hlink _ rfl, hlink _ rfl, hlink _ rfl, hlink _ rfl⟩

/-- Changing payloads leaves the links. -/
theorem sameLinks_modify (dom : Dom) (link : Link) (change : Cell → Cell)
    (h : ∀ cell, ∃ data, change cell = { cell with data := data }) :
    SameLinks dom (dom.modify link change) := by
  have hlink : ∀ (f : Cell → Link), (∀ cell data, f { cell with data := data } = f cell) →
      ∀ y, ((dom.modify link change).get? y).bind f = (dom.get? y).bind f := by
    intro f hf y
    rw [get?_modify]
    split
    · cases dom.get? y with
      | none => rfl
      | some cell =>
        obtain ⟨data, hdata⟩ := h cell
        rw [Option.map_some, Option.bind_some, Option.bind_some, hdata, hf]
    · rfl
  exact ⟨hlink _ fun _ _ => rfl, hlink _ fun _ _ => rfl, hlink _ fun _ _ => rfl,
    hlink _ fun _ _ => rfl, hlink _ fun _ _ => rfl⟩

/-- Setting an attribute adds no node. -/
@[simp] theorem size_setAttribute (dom : Dom) (link : Link) (name : QualName) (value : String) :
    (dom.setAttribute link name value).size = dom.size := size_modify ..

/-- Setting an attribute changes a payload only. -/
theorem sameLinks_setAttribute (dom : Dom) (link : Link) (name : QualName) (value : String) :
    SameLinks dom (dom.setAttribute link name value) := by
  refine sameLinks_modify dom link _ fun cell => ?_
  split
  · exact ⟨_, rfl⟩
  · exact ⟨cell.data, rfl⟩

end RichDoc.Dom

namespace RichDoc

/-- The payload after an attribute is set; nothing happens to other nodes than elements. -/
def NodeData.withAttribute (name : QualName) (value : String) : NodeData → NodeData
  | .element tag attrs => .element tag (Dom.putAttribute attrs name value)
  | data => data

/-- Only the payload of one node is changed. -/
theorem Dom.data?_setAttribute (dom : Dom) (id : NodeId) (name : QualName) (value : String)
    (other : NodeId) :
    (dom.setAttribute (some id) name value).data? (some other) =
      if other = id then (dom.data? (some other)).map (NodeData.withAttribute name value)
      else dom.data? (some other) := by
  rw [setAttribute, data?, data?, get?_modify]
  by_cases h : other = id
  · rw [if_pos (congrArg some h), if_pos h]
    cases dom.get? (some other) with
    | none => rfl
    | some cell =>
      obtain ⟨data, _, _, _, _, _⟩ := cell
      cases data <;> rfl
  · rw [if_neg fun he => h (Option.some.inj he), if_neg h]

end RichDoc
