import RichDoc.Proofs.Dom.Editing

/-!
# Runs of edits

A store is changed by few calls: nodes are created, appended, put before a sibling and unlinked, and
text is added at the end of a node. Each call is an operation on the lists of children. A run of
calls from the store with one document leaves a forest, as long as no node is put below itself.
-/

namespace RichDoc.Dom

/-- A call that changes a store. -/
inductive Edit where
  | create (data : NodeData)
  | append (parent child : NodeId)
  | appendText (parent : NodeId) (text : String)
  | insertBefore (sibling node : NodeId)
  | detach (node : NodeId)
  deriving DecidableEq, Repr

/-- The last child of a node where it is a text, with that text. -/
def lastText? (dom : Dom) (p : NodeId) : Option (NodeId × String) :=
  (dom.children (some p)).getLast?.bind fun id => (dom.text? (some id)).map fun old => (id, old)

variable {dom : Dom}

namespace Edit

/-- The store after a call. -/
def apply (dom : Dom) : Edit → Dom
  | .create data => (dom.create data).2
  | .append p x => dom.append (some p) (some x)
  | .appendText p text => dom.appendText (some p) text
  | .insertBefore s x => dom.insertBefore (some s) (some x)
  | .detach x => dom.detach (some x)

/-- The nodes of a call are there, no node is put below itself, and a node that another one is put
before has a parent. -/
def Allowed (dom : Dom) : Edit → Prop
  | .create _ => True
  | .append p x => p < dom.size ∧ x < dom.size ∧ ¬dom.Under p x
  | .appendText p _ => p < dom.size
  | .insertBefore s x =>
    x < dom.size ∧ s ≠ x ∧ ∃ p, dom.parent (some s) = some p ∧ ¬dom.Under p x
  | .detach x => x < dom.size

/-- The children that a node has after a call. -/
def childrenAfter (dom : Dom) (edit : Edit) (id : NodeId) : List NodeId :=
  let kids := dom.children (some id)
  match edit with
  | .create _ => kids
  | .append p x => if id = p then kids.erase x ++ [x] else kids.erase x
  | .appendText p _ => if id = p ∧ dom.lastText? p = none then kids ++ [dom.size] else kids
  | .insertBefore s x => putBefore s x (kids.erase x)
  | .detach x => kids.erase x

/-- The payload that a node has after a call. -/
def dataAfter (dom : Dom) (edit : Edit) (id : NodeId) : Option NodeData :=
  match edit with
  | .create data => if id = dom.size then some data else dom.data? (some id)
  | .appendText p text =>
    match dom.lastText? p with
    | some (last, old) => if id = last then some (.text (old ++ text)) else dom.data? (some id)
    | none => if id = dom.size then some (.text text) else dom.data? (some id)
  | .append _ _ | .insertBefore _ _ | .detach _ => dom.data? (some id)

/-- A call leaves a forest with the children and the payloads that it is meant to leave. -/
structure Does (dom : Dom) (edit : Edit) : Prop where
  wellFormed : (edit.apply dom).WellFormed
  children_eq : ∀ id, (edit.apply dom).children (some id) = edit.childrenAfter dom id
  data_eq : ∀ id, (edit.apply dom).data? (some id) = edit.dataAfter dom id

end Edit

/-! ### New nodes -/

theorem WellFormed.create (hw : dom.WellFormed) (data : NodeData) :
    (dom.create data).2.WellFormed :=
  (sameLinks_create dom data).wellFormed hw (by simp)

/-- A node without children is above no other node. -/
theorem WellFormed.eq_of_under (hw : dom.WellFormed) {p x : NodeId} (h : dom.Under p x)
    (hx : dom.children (some x) = []) : p = x := by
  rcases Relation.ReflTransGen.cases_tail h with he | ⟨child, -, hchild⟩
  · exact he.symm
  · have hmem := hw.mem_children_iff.mpr hchild
    rw [hx] at hmem
    cases hmem

theorem data?_create (dom : Dom) (data : NodeData) (id : NodeId) :
    (dom.create data).2.data? (some id) =
      if id = dom.size then some data else dom.data? (some id) := by
  rw [data?, get?_create]
  split <;> rfl

/-- A node that is appended as soon as it is made comes behind the children that are there. -/
theorem WellFormed.append_create (hw : dom.WellFormed) {p : NodeId} (hp : p < dom.size)
    (data : NodeData) :
    (dom.create data).2.Rearranges ((dom.create data).2.append (some p) (some dom.size)) fun id =>
      if id = p then dom.children (some id) ++ [dom.size] else dom.children (some id) := by
  have hsame := sameLinks_create dom data
  have hw' := hw.create data
  have hchildren := hsame.children_eq hw
  have hunder : ¬(dom.create data).2.Under p dom.size := by
    intro hu
    have he := hw'.eq_of_under hu ((hchildren _).trans (hw.children_of_le (Nat.le_refl _)))
    exact absurd hp (he ▸ Nat.lt_irrefl _)
  have hlt : dom.size < (dom.create data).2.size := by simp
  have h := hw'.append (Nat.lt_trans hp hlt) hlt hunder
  refine h.congr fun id => ?_
  have hnew : dom.size ∉ dom.children (some id) := fun hmem =>
    Nat.lt_irrefl _ (hw.lt_size_of_mem_children hmem)
  rw [hchildren, List.erase_of_not_mem hnew]

/-! ### The text at the end of a node -/

theorem bind_text? (dom : Dom) (link : Link) :
    ((dom.get? link).bind fun cell => cell.data.text?) = dom.text? link := by
  rw [text?, data?, Option.bind_map]
  rfl

namespace WellFormed

/-- The text at the end of a node is found through the link to its last child. -/
theorem lastText?_eq (hw : dom.WellFormed) (p : NodeId) :
    dom.lastText? p = (dom.lastChild (some p)).bind fun id =>
      (dom.text? (some id)).map fun old => (id, old) := by
  rw [lastText?, hw.lastChild_eq]

theorem lastText?_eq_some (hw : dom.WellFormed) {p last : NodeId} {old : String}
    (h : dom.lastText? p = some (last, old)) :
    dom.lastChild (some p) = some last ∧ dom.text? (some last) = some old := by
  rw [hw.lastText?_eq] at h
  obtain ⟨id, hid, hmap⟩ := Option.bind_eq_some_iff.mp h
  obtain ⟨_, hold, hpair⟩ := Option.map_eq_some_iff.mp hmap
  obtain ⟨rfl, rfl⟩ := Prod.mk.inj hpair
  exact ⟨hid, hold⟩

theorem lastText?_eq_none (hw : dom.WellFormed) {p : NodeId} (h : dom.lastText? p = none) :
    dom.text? (dom.lastChild (some p)) = none := by
  rw [hw.lastText?_eq] at h
  cases hlast : dom.lastChild (some p) with
  | none => rfl
  | some id =>
    rw [hlast, Option.bind_some] at h
    exact Option.map_eq_none_iff.mp h

end WellFormed

/-! ### What each call does -/

namespace Edit

theorem does_create (hw : dom.WellFormed) (data : NodeData) : (create data).Does dom :=
  ⟨hw.create data, (sameLinks_create dom data).children_eq hw, data?_create dom data⟩

theorem does_append (hw : dom.WellFormed) {p x : NodeId} (h : (append p x).Allowed dom) :
    (append p x).Does dom := by
  obtain ⟨hp, hx, hunder⟩ := h
  have hr := hw.append hp hx hunder
  exact ⟨hr.wellFormed, hr.children_eq, fun id => hr.data_eq (some id)⟩

theorem does_insertBefore (hw : dom.WellFormed) {s x : NodeId}
    (h : (insertBefore s x).Allowed dom) : (insertBefore s x).Does dom := by
  obtain ⟨hx, hne, p, hp, hunder⟩ := h
  have hr := hw.insertBefore hx hp hne hunder
  exact ⟨hr.wellFormed, hr.children_eq, fun id => hr.data_eq (some id)⟩

theorem does_detach (hw : dom.WellFormed) (x : NodeId) : (detach x).Does dom := by
  have hr := hw.detach x
  exact ⟨hr.wellFormed, hr.children_eq, fun id => hr.data_eq (some id)⟩

/-- Text that is added to a node goes to a last child that is a text. -/
theorem does_appendText_of_some (hw : dom.WellFormed) {p last : NodeId} {old : String}
    (hlast : dom.lastText? p = some (last, old)) (text : String) :
    (appendText p text).Does dom := by
  obtain ⟨hlink, hold⟩ := hw.lastText?_eq_some hlast
  have happly : (appendText p text).apply dom =
      dom.modify (some last) fun c => { c with data := .text (old ++ text) } := by
    rw [apply, Dom.appendText, hlink, bind_text?, hold]
  have hsame := sameLinks_modify dom (some last) (fun c => { c with data := .text (old ++ text) })
    fun _ => ⟨_, rfl⟩
  obtain ⟨cell, hcell⟩ : ∃ cell, dom.get? (some last) = some cell := by
    rw [← bind_text?] at hold
    obtain ⟨cell, hcell, -⟩ := Option.bind_eq_some_iff.mp hold
    exact ⟨cell, hcell⟩
  refine ⟨?_, fun y => ?_, fun y => ?_⟩
  · rw [happly]
    exact hsame.wellFormed hw (Nat.le_of_eq (size_modify ..).symm)
  · have hne : ¬(y = p ∧ dom.lastText? p = none) := by
      rw [hlast]
      exact fun h => nomatch h.2
    rw [happly, hsame.children_eq hw, childrenAfter, if_neg hne]
  · rw [happly, dataAfter, hlast, data?, get?_modify]
    simp only [Option.some.injEq]
    by_cases hy : y = last
    · rw [if_pos hy, if_pos hy, hy, hcell]
      rfl
    · rw [if_neg hy, if_neg hy, data?]

/-- Text that is added to a node without a text at its end becomes its last child. -/
theorem does_appendText_of_none (hw : dom.WellFormed) {p : NodeId} (hp : p < dom.size)
    (hlast : dom.lastText? p = none) (text : String) : (appendText p text).Does dom := by
  have happly : (appendText p text).apply dom =
      (dom.create (.text text)).2.append (some p) (some dom.size) := by
    rw [apply, Dom.appendText, bind_text?, hw.lastText?_eq_none hlast]
    rfl
  have hr := hw.append_create hp (.text text)
  refine ⟨?_, fun y => ?_, fun y => ?_⟩
  · rw [happly]
    exact hr.wellFormed
  · rw [happly, hr.children_eq, childrenAfter]
    simp only [hlast, and_true]
  · rw [happly, hr.data_eq, data?_create, dataAfter, hlast]

/-- Every allowed call does what it is meant to do. -/
theorem does (hw : dom.WellFormed) {edit : Edit} (h : edit.Allowed dom) : edit.Does dom := by
  cases edit with
  | create data => exact does_create hw data
  | append p x => exact does_append hw h
  | appendText p text =>
    cases hlast : dom.lastText? p with
    | some found => exact does_appendText_of_some hw hlast text
    | none => exact does_appendText_of_none hw h hlast text
  | insertBefore s x => exact does_insertBefore hw h
  | detach x => exact does_detach hw x

/-- No call takes a node away. -/
theorem size_le_apply (dom : Dom) (edit : Edit) : dom.size ≤ (edit.apply dom).size := by
  cases edit with
  | create data => exact Nat.le_of_lt (by simp [apply])
  | append p x => exact Nat.le_of_eq (by simp [apply])
  | appendText p text =>
    rw [apply, Dom.appendText]
    split
    · exact Nat.le_of_eq (size_modify ..).symm
    · exact Nat.le_of_lt (by simp)
  | insertBefore s x => exact Nat.le_of_eq (by simp [apply])
  | detach x => exact Nat.le_of_eq (by simp [apply])

/-- Calls of which each is allowed after those before it. -/
def AllAllowed (dom : Dom) : List Edit → Prop
  | [] => True
  | edit :: rest => edit.Allowed dom ∧ AllAllowed (edit.apply dom) rest

/-- Allowed calls leave a forest. -/
theorem AllAllowed.wellFormed (hw : dom.WellFormed) {edits : List Edit}
    (h : AllAllowed dom edits) : (edits.foldl apply dom).WellFormed := by
  induction edits generalizing dom with
  | nil => exact hw
  | cons edit rest ih => exact ih (does hw h.1).wellFormed h.2

end Edit

/-! ### Runs -/

/-- The stores to which allowed calls lead from the store with one document. -/
inductive Reachable : Dom → Prop where
  | empty : Reachable .empty
  | edit {dom : Dom} (edit : Edit) : Reachable dom → edit.Allowed dom → Reachable (edit.apply dom)

theorem wellFormed_empty : Dom.empty.WellFormed := by
  have hget : ∀ id, Dom.empty.get? (some id) =
      if id = 0 then some (.detached .document) else none := by
    intro id
    cases id <;> rfl
  have hparent : ∀ id, Dom.empty.parent (some id) = none := by
    intro id
    rw [parent, hget]
    split <;> rfl
  refine .of_isChildren ?_ ?_ ?_ ?_
  · intro id hid
    have hzero : id = 0 := Nat.lt_one_iff.mp hid
    subst hzero
    refine ⟨[], rfl, rfl, trivial, List.nodup_nil, ?_⟩
    intro other h
    rw [hparent] at h
    cases h
  · intro id p h
    rw [hparent] at h
    cases h
  · intro id hid _
    have hzero : id = 0 := Nat.lt_one_iff.mp hid
    subst hzero
    exact ⟨rfl, rfl⟩
  · refine acyclic_of_lt fun id p h => ?_
    rw [hparent] at h
    cases h

/-- Calls lead from forests to forests. -/
theorem Reachable.wellFormed (h : dom.Reachable) : dom.WellFormed := by
  induction h with
  | empty => exact wellFormed_empty
  | edit _ _ hallowed ih => exact (Edit.does ih hallowed).wellFormed

/-- A store is a forest after every run of calls, and each further call changes the lists of
children and the payloads as it is meant to. -/
theorem Reachable.wellFormed_and_does (h : dom.Reachable) :
    dom.WellFormed ∧ ∀ edit : Edit, edit.Allowed dom → edit.Does dom :=
  ⟨h.wellFormed, fun _ hallowed => Edit.does h.wellFormed hallowed⟩

/-- What is at or below a node. -/
theorem under_iff {p x : NodeId} :
    dom.Under p x ↔ p = x ∨ ∃ q, dom.parent (some p) = some q ∧ dom.Under q x :=
  Relation.ReflTransGen.cases_head_iff

/-- A node that hangs on nothing is below no other one. -/
theorem not_under_of_parent_none {p x : NodeId} (h : dom.parent (some p) = none) (hne : x ≠ p) :
    ¬dom.Under p x := by
  rw [under_iff, h]
  rintro (rfl | ⟨_, hq, -⟩)
  · exact hne rfl
  · cases hq

/-- A node is not below another one that its parent is not below. -/
theorem not_under_of_parent {p q x : NodeId} (h : dom.parent (some p) = some q) (hne : x ≠ p)
    (hq : ¬dom.Under q x) : ¬dom.Under p x := by
  rw [under_iff, h]
  rintro (rfl | ⟨_, hp, hu⟩)
  · exact hne rfl
  · cases hp
    exact hq hu

/-- A text is put before an element of the document, and can then be moved into it. -/
theorem Reachable.wellFormed_and_does_sample :
    let dom := [.create (.element (.html "p") []), .append 0 1, .appendText 0 "x",
      .insertBefore 1 2].foldl Edit.apply .empty
    dom.WellFormed ∧ dom.children (some 0) = [2, 1] ∧ (Edit.append 1 2).Does dom := by
  have hmade := Reachable.empty.edit (.create (.element (.html "p") [])) trivial
  have happended := hmade.edit (.append 0 1)
    ⟨by decide, by decide, not_under_of_parent_none rfl (by decide)⟩
  have htext := happended.edit (.appendText 0 "x") (Nat.zero_lt_succ _)
  have hrun := htext.edit (.insertBefore 1 2)
    ⟨by decide, by decide, 0, rfl, not_under_of_parent_none rfl (by decide)⟩
  obtain ⟨hw, hdoes⟩ := Reachable.wellFormed_and_does hrun
  refine ⟨hw, rfl, hdoes _ ⟨by decide, by decide, ?_⟩⟩
  rw [under_iff]
  rintro (h | ⟨q, hq, hu⟩)
  · cases h
  · obtain rfl : 0 = q := Option.some.inj hq
    exact not_under_of_parent_none rfl (by decide) hu

end RichDoc.Dom
