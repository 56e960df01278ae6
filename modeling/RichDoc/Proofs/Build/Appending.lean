import RichDoc.Proofs.Build.Filling
import Mathlib.Order.WellFoundedSet

/-!
# What changes when a node gets more children

Work that only puts new nodes behind the children of one node changes few links of older nodes: the
links from that node to its first and its last child, and the link from the child that was its last
one. What is new stands below the new children or hangs on nothing.
-/

namespace RichDoc.Dom

variable {s t u : Dom} {target : NodeId} {kids : List NodeId}

/-- A cell is known by its payload and its links. -/
theorem get?_eq_some {id : NodeId} {cell : Cell} (hid : id < s.size)
    (hdata : s.data? (some id) = some cell.data) (hparent : s.parent (some id) = cell.parent)
    (hfirst : s.firstChild (some id) = cell.firstChild)
    (hlast : s.lastChild (some id) = cell.lastChild)
    (hprev : s.prevSibling (some id) = cell.prevSibling)
    (hnext : s.nextSibling (some id) = cell.nextSibling) : s.get? (some id) = some cell := by
  have hget := get?_of_lt hid
  simp only [data?, parent, firstChild, lastChild, prevSibling, nextSibling, hget,
    Option.bind_some, Option.map_some, Option.some.injEq] at *
  rw [Cell.mk.injEq]
  exact ⟨hdata, hparent, hfirst, hlast, hprev, hnext⟩

/-- What holds of a node whenever it holds of its parent, if there is one, holds of every node. The
induction goes along the way up, where no node comes twice and there are finitely many nodes. -/
theorem WellFormed.induction_parent (hw : s.WellFormed) {motive : NodeId → Prop}
    (step : ∀ id, (∀ p, s.parent (some id) = some p → motive p) → motive id) (id : NodeId) :
    motive id := by
  by_cases hid : id < s.size
  · let above : NodeId → NodeId → Prop := fun p child => Relation.TransGen s.ChildOf child p
    have horder : IsStrictOrder NodeId above :=
      { irrefl := hw.acyclic, trans := fun _ _ _ h h' => h'.trans h }
    have hfinite : {x : NodeId | x < s.size}.WellFoundedOn above :=
      (Set.finite_lt_nat s.size).wellFoundedOn
    exact hfinite.induction hid fun x _ ih => step x fun p hp =>
      ih p (hw.parents x p hp) (.single hp)
  · exact step id fun p hp => absurd (lt_size_of_parent hp) hid

/-- A node has got new children behind the old ones, and nothing else has happened to what was
there. -/
structure Gets (target : NodeId) (s t : Dom) (kids : List NodeId) : Prop where
  grows : Grows (fun id => id = target) s t
  children_eq : t.children (some target) = s.children (some target) ++ kids

/-- All that work may change and make that only appends to a node: links of that node and of the
child that was its last one, and new nodes below the new children or below one that hangs on
nothing. -/
structure AppendsTo (target : NodeId) (before after : Dom) (kids : List NodeId) : Prop where
  wellFormed : after.WellFormed
  size_le : before.size ≤ after.size
  /-- Payloads, parents and siblings stay, up to the links to the first and to the last child and
  the one behind the child that was the last. -/
  cells : ∀ id < before.size, after.get? (some id) = (before.get? (some id)).map fun cell =>
    { cell with
      firstChild :=
        if id = target then (before.children (some target) ++ kids).head? else cell.firstChild
      lastChild :=
        if id = target then (before.children (some target) ++ kids).getLast? else cell.lastChild
      nextSibling :=
        if before.lastChild (some target) = some id then kids.head? else cell.nextSibling }
  children_eq : ∀ id < before.size, after.children (some id) =
    before.children (some id) ++ if id = target then kids else []
  kids_new : ∀ kid ∈ kids, before.size ≤ kid ∧ kid < after.size
  /-- A new node is at or below a new child of the node, or a new node that hangs on nothing. -/
  rest : ∀ id, before.size ≤ id → id < after.size → ∃ top, before.size ≤ top ∧
    after.Under id top ∧ (top ∈ kids ∨ after.parent (some top) = none)

namespace Gets

theorem refl (target : NodeId) (hs : s.WellFormed) : Gets target s s [] :=
  ⟨.refl _ hs, (List.append_nil _).symm⟩

/-- Nodes of their own do not matter. -/
theorem made (h : Gets target s t kids) (ht : target < s.size)
    (hg : Grows (fun _ => False) t u) : Gets target s u kids :=
  ⟨h.grows.trans hg fun _ _ ho => ho.elim,
    (hg.children_eq target (Nat.lt_of_lt_of_le ht h.grows.size_le) not_false).trans h.children_eq⟩

/-- A new node that hangs on nothing is hung on the node, or on one that is new itself. -/
theorem hang (h : Gets target s t kids) (ht : target < s.size) (hg : Grows (fun _ => False) t u)
    {p x : NodeId} (hp : p = target ∨ s.size ≤ p) (hpt : p < t.size) (hx : t.size ≤ x)
    (hxu : x < u.size) (hdetached : u.parent (some x) = none) :
    Gets target s (u.append (some p) (some x)) (kids ++ if p = target then [x] else []) := by
  obtain ⟨hgrows, hkids⟩ := h.made ht hg
  have hunder : ¬u.Under p x := fun hu => absurd hpt (Nat.not_lt.mpr (hg.le_of_under hu hx))
  obtain ⟨hr, hparent⟩ := hgrows.after.append_detached (Nat.lt_of_lt_of_le hpt hg.size_le) hxu
    hdetached hunder
  refine ⟨hgrows.append_new hp (Nat.le_trans h.grows.size_le hx) hr hparent, ?_⟩
  rw [hr.children_eq, hkids, List.append_assoc]
  by_cases he : p = target
  · rw [if_pos he, if_pos he.symm]
  · rw [if_neg he, if_neg fun he' => he he'.symm]

/-! ### What appending changes -/

variable (h : Gets target s t kids)

include h

theorem children_of_lt {id : NodeId} (hid : id < s.size) :
    t.children (some id) = s.children (some id) ++ if id = target then kids else [] := by
  by_cases he : id = target
  · rw [if_pos he, he, h.children_eq]
  · rw [if_neg he, List.append_nil, h.grows.children_eq id hid he]

/-- Older nodes keep the sibling before them. Behind the child that was last now come the new
ones. -/
theorem siblings_eq {id : NodeId} (hid : id < s.size) :
    t.prevSibling (some id) = s.prevSibling (some id) ∧
      t.nextSibling (some id) =
        if s.lastChild (some target) = some id then kids.head? else s.nextSibling (some id) := by
  have hs := h.grows.before
  have hparent := h.grows.parent_eq id hid
  cases hp : s.parent (some id) with
  | none =>
    obtain ⟨hprev, hnext⟩ := hs.siblings_of_parent_none hp
    obtain ⟨hprev', hnext'⟩ := h.grows.after.siblings_of_parent_none (hparent.trans hp)
    rw [hprev, hnext, hprev', hnext', if_neg (hs.ne_lastChild hp target).symm]
    exact ⟨rfl, rfl⟩
  | some p =>
    obtain ⟨left, right, hk, hprev, hnext⟩ := hs.exists_split hp
    have hk' : t.children (some p) = left ++ id :: (right ++ if p = target then kids else []) := by
      rw [h.children_of_lt (hs.parents id p hp), hk, List.append_assoc, List.cons_append]
    obtain ⟨hprev', hnext'⟩ := h.grows.after.siblings_of_children hk'
    refine ⟨hprev'.trans hprev.symm, ?_⟩
    rw [hnext', hnext, hs.lastChild_eq]
    by_cases he : p = target
    · have hnodup := hs.nodup_children p
      rw [hk] at hnodup
      rw [if_pos he, ← he, hk]
      cases right with
      | nil => rw [List.nil_append, List.getLast?_concat, if_pos rfl]
      | cons y others =>
        have hne : (left ++ id :: y :: others).getLast? ≠ some id := by
          intro hlast
          rw [List.getLast?_append_of_ne_nil _ (List.cons_ne_nil id _),
            List.getLast?_cons_cons] at hlast
          rw [List.nodup_append, List.nodup_cons] at hnodup
          exact hnodup.2.1.1 (List.mem_of_getLast? hlast)
        rw [if_neg hne, List.cons_append, List.head?_cons, List.head?_cons]
    · have hne : (s.children (some target)).getLast? ≠ some id := by
        intro hlast
        have hp' := hs.mem_children_iff.mp (List.mem_of_getLast? hlast)
        exact he (Option.some.inj (hp.symm.trans hp'))
      rw [if_neg hne, if_neg he, List.append_nil]

theorem appendsTo : AppendsTo target s t kids where
  wellFormed := h.grows.after
  size_le := h.grows.size_le
  cells id hid := by
    obtain ⟨cell, hget⟩ : ∃ cell, s.get? (some id) = some cell := ⟨_, get?_of_lt hid⟩
    obtain ⟨hprev, hnext⟩ := h.siblings_eq hid
    have hchildren := h.children_of_lt hid
    rw [hget, Option.map_some]
    refine get?_eq_some (Nat.lt_of_lt_of_le hid h.grows.size_le) ?_ ?_ ?_ ?_ ?_ ?_ <;> dsimp only
    · rw [h.grows.data_eq id hid, data?, hget, Option.map_some]
    · rw [h.grows.parent_eq id hid, parent, hget, Option.bind_some]
    · rw [h.grows.after.firstChild_eq, hchildren]
      by_cases he : id = target
      · rw [if_pos he, if_pos he, he]
      · rw [if_neg he, if_neg he, List.append_nil, ← h.grows.before.firstChild_eq, firstChild,
          hget, Option.bind_some]
    · rw [h.grows.after.lastChild_eq, hchildren]
      by_cases he : id = target
      · rw [if_pos he, if_pos he, he]
      · rw [if_neg he, if_neg he, List.append_nil, ← h.grows.before.lastChild_eq, lastChild,
          hget, Option.bind_some]
    · rw [hprev, prevSibling, hget, Option.bind_some]
    · rw [hnext, nextSibling, hget, Option.bind_some]
  children_eq id hid := h.children_of_lt hid
  kids_new kid hkid := h.grows.le_of_appended h.children_eq hkid
  rest id := by
    have ht := h.grows.after
    induction id using ht.induction_parent with
    | step id ih =>
      intro hid hlt
      cases hp : t.parent (some id) with
      | none => exact ⟨id, hid, .refl, Or.inr hp⟩
      | some p =>
        by_cases hnew : s.size ≤ p
        · obtain ⟨top, htop, hunder, hend⟩ := ih p hp hnew (ht.parents id p hp)
          exact ⟨top, htop, .head hp hunder, hend⟩
        · have hmem := ht.mem_children_iff.mpr hp
          rw [h.children_of_lt (Nat.lt_of_not_le hnew)] at hmem
          rcases List.mem_append.mp hmem with hold | hmem
          · exact absurd (h.grows.before.lt_size_of_mem_children hold) (Nat.not_lt.mpr hid)
          · split at hmem
            · exact ⟨id, hid, .refl, Or.inl hmem⟩
            · cases hmem

end Gets

/-- Where nothing is hung on an older node, all older nodes keep their cells. -/
theorem Grows.get?_eq (h : Grows (fun _ => False) s t) {id : NodeId} (hid : id < s.size) :
    t.get? (some id) = s.get? (some id) := by
  have hnone : Gets t.size s t [] := by
    refine ⟨(Grows.refl _ h.before).trans h fun _ _ ho => ho.elim, ?_⟩
    rw [h.after.children_of_le (Nat.le_refl _), h.before.children_of_le h.size_le]
    rfl
  have hlast : s.lastChild (some t.size) = none := by
    rw [h.before.lastChild_eq, h.before.children_of_le h.size_le]
    rfl
  rw [hnone.appendsTo.cells id hid, hlast]
  have hne : id ≠ t.size := Nat.ne_of_lt (Nat.lt_of_lt_of_le hid h.size_le)
  simp [hne]

end RichDoc.Dom
