import RichDoc.Dom.Assembly
import RichDoc.Proofs.Build.Filling
import RichDoc.Proofs.Dom.Runs

/-!
# Moving the children of a node

The children of a node are moved one by one to the end of another one. What holds of the whole move
is said for any list of nodes that are appended one after another: they leave the lists they were
in, and stand together, in order, at the end of one list. Nothing below them is touched.
-/

namespace RichDoc.Dom

variable {dom dom' : Dom}

/-! ### Nodes appended one after another -/

/-- After a node is appended, its parent is the only one that is new. -/
theorem Rearranges.parent_cases {p x : NodeId} (hw : dom.WellFormed)
    (h : dom.Rearranges dom' fun id =>
      if id = p then (dom.children (some id)).erase x ++ [x]
      else (dom.children (some id)).erase x) {a b : NodeId}
    (hab : dom'.parent (some a) = some b) : dom.parent (some a) = some b ∨ a = x ∧ b = p := by
  rw [← h.wellFormed.mem_children_iff, h.children_eq] at hab
  rw [← hw.mem_children_iff]
  split at hab
  · rename_i hb
    rcases List.mem_append.mp hab with ha | ha
    · exact Or.inl (List.mem_of_mem_erase ha)
    · exact Or.inr ⟨List.mem_singleton.mp ha, hb⟩
  · exact Or.inl (List.mem_of_mem_erase hab)

/-- Nodes that are appended one after another leave their lists and stand, in order, at the end of
one list. None of them comes to stand above that list, so each step is allowed after the ones before
it. -/
theorem WellFormed.appendEach (hw : dom.WellFormed) {p : NodeId} (hp : p < dom.size)
    {nodes : List NodeId} (hn : nodes.Nodup) (hlt : ∀ x ∈ nodes, x < dom.size)
    (hunder : ∀ x ∈ nodes, ¬dom.Under p x) :
    dom.Rearranges (nodes.foldl (fun dom x => dom.append (some p) (some x)) dom) fun id =>
      (dom.children (some id)).filter (fun y => decide (y ∉ nodes)) ++
        if id = p then nodes else [] := by
  induction nodes generalizing dom with
  | nil =>
    refine (Rearranges.refl hw).congr fun id => ?_
    simp
  | cons x rest ih =>
    obtain ⟨hxr, hn⟩ := List.nodup_cons.mp hn
    obtain ⟨hx, hlt⟩ := List.forall_mem_cons.mp hlt
    obtain ⟨hxu, hunder⟩ := List.forall_mem_cons.mp hunder
    have hstep := hw.append hp hx hxu
    have hrest : ∀ y ∈ rest, ¬(dom.append (some p) (some x)).Under p y := by
      intro y hy hu
      rcases under_cases (fun a b => hstep.parent_cases hw) hu with h | ⟨h, -⟩
      · exact hunder y hy h
      · exact hxu h
    have h := ih hstep.wellFormed (hstep.size_eq ▸ hp) hn
      (fun y hy => hstep.size_eq ▸ hlt y hy) hrest
    have hkept : ∀ id, ((dom.children (some id)).erase x).filter (fun y => decide (y ∉ rest)) =
        (dom.children (some id)).filter fun y => decide (y ∉ x :: rest) := by
      intro id
      rw [(hw.nodup_children id).erase_eq_filter, List.filter_filter]
      refine List.filter_congr fun y _ => ?_
      rw [Bool.eq_iff_iff]
      simp [and_comm]
    rw [List.foldl_cons]
    refine (hstep.trans h).congr fun id => ?_
    rw [hstep.children_eq]
    by_cases hid : id = p
    · have hone : [x].filter (fun y => decide (y ∉ rest)) = [x] := by simp [hxr]
      simp only [if_pos hid]
      rw [List.filter_append, hkept, hone, List.append_assoc, List.singleton_append]
    · simp only [if_neg hid]
      rw [hkept]

/-! ### All children of a node -/

/-- The children of one node have become the last children of another one, and nothing else is
different. -/
structure ChildrenMoved (dom dom' : Dom) (source target : NodeId) : Prop where
  wellFormed : dom'.WellFormed
  size_eq : dom'.size = dom.size
  data_eq : ∀ link, dom'.data? link = dom.data? link
  source_eq : source ≠ target → dom'.children (some source) = []
  target_eq : source ≠ target →
    dom'.children (some target) = dom.children (some target) ++ dom.children (some source)
  /-- A node that is given its own children keeps them in their order. -/
  same_eq : source = target → dom'.children (some source) = dom.children (some source)
  others_eq : ∀ id, id ≠ source → id ≠ target → dom'.children (some id) = dom.children (some id)
  trees_eq : ∀ child ∈ dom.children (some source), dom'.tree (some child) = dom.tree (some child)

namespace WellFormed

/-- A node is below no child of a node that it is not below itself. -/
theorem not_under_child (hw : dom.WellFormed) {source target child : NodeId}
    (h : dom.Under target source → target = source) (hchild : child ∈ dom.children (some source)) :
    ¬dom.Under target child := by
  have hparent := hw.mem_children_iff.mp hchild
  intro hu
  obtain rfl := h (hu.tail hparent)
  exact hw.not_under_parent hparent hu

/-- Moving the children of a node changes two lists of children, since no node is a child of two
nodes. -/
theorem rearranges_moveChildren (hw : dom.WellFormed) {source target : NodeId}
    (ht : target < dom.size) (h : dom.Under target source → target = source) :
    dom.Rearranges (dom.moveChildren (some source) (some target)) fun id =>
      (if id = source then [] else dom.children (some id)) ++
        if id = target then dom.children (some source) else [] := by
  have hr := hw.appendEach ht (hw.nodup_children source)
    (fun child hchild => hw.lt_size_of_mem_children hchild)
    fun child hchild => hw.not_under_child h hchild
  refine hr.congr fun id => ?_
  congr 1
  by_cases hid : id = source
  · rw [if_pos hid, hid, List.filter_eq_nil_iff]
    exact fun y hy => by simpa using hy
  · rw [if_neg hid, List.filter_eq_self]
    intro y hy
    rw [decide_eq_true_iff, hw.mem_children_iff, hw.mem_children_iff.mp hy]
    exact fun he => hid (Option.some.inj he)

/-- The children of a node can be moved to every node that is not properly below it. They come, in
order, behind the children that are there, and all trees below them stay as they were, since neither
of the two nodes is in one of these trees. -/
theorem moveChildren_moves (hw : dom.WellFormed) {source target : NodeId}
    (ht : target < dom.size) (h : dom.Under target source → target = source) :
    ChildrenMoved dom (dom.moveChildren (some source) (some target)) source target := by
  have hr := hw.rearranges_moveChildren ht h
  refine ⟨hr.wellFormed, hr.size_eq, hr.data_eq, fun hne => ?_, fun hne => ?_, fun he => ?_,
    fun id hid hid' => ?_, fun child hchild => ?_⟩
  · rw [hr.children_eq, if_pos rfl, if_neg hne, List.append_nil]
  · rw [hr.children_eq, if_neg (Ne.symm hne), if_pos rfl]
  · rw [hr.children_eq, if_pos rfl, if_pos he, List.nil_append]
  · rw [hr.children_eq, if_neg hid, if_neg hid', List.append_nil]
  · refine tree_eq_of_under hw hr.wellFormed child (hw.lt_size_of_mem_children hchild)
      fun x hx => ⟨hr.data_eq _, ?_⟩
    have hsource : x ≠ source := by
      rintro rfl
      exact hw.not_under_parent (hw.mem_children_iff.mp hchild) hx
    have htarget : x ≠ target := by
      rintro rfl
      exact hw.not_under_child h hchild hx
    rw [hr.children_eq, if_neg hsource, if_neg htarget, List.append_nil]

/-- The children of a node are moved to its parent. -/
theorem moveChildren_moves_sample :
    let dom := [.create (.element (.html "ul") []), .create (.element (.html "li") []),
      .create (.text "a"), .create (.text "b"), .append 2 3, .append 2 4, .append 1 2].foldl
        Edit.apply .empty
    let dom' := dom.moveChildren (some 2) (some 1)
    dom.WellFormed ∧ 1 < dom.size ∧ ¬dom.Under 1 2 ∧ dom.ChildrenMoved dom' 2 1 ∧
      dom'.children (some 1) = [2, 3, 4] ∧ dom'.children (some 2) = [] := by
  intro dom dom'
  have hloose : ∀ {dom : Dom} {p x : NodeId}, dom.parent (some p) = none → x ≠ p →
      ¬dom.Under p x := not_under_of_parent_none
  have hw : dom.WellFormed := Edit.AllAllowed.wellFormed wellFormed_empty
    ⟨trivial, trivial, trivial, trivial, ⟨by decide, by decide, hloose rfl (by decide)⟩,
      ⟨by decide, by decide, hloose rfl (by decide)⟩,
      ⟨by decide, by decide, hloose rfl (by decide)⟩, trivial⟩
  have hunder : ¬dom.Under 1 2 := hloose rfl (by decide)
  have hmoved : dom.ChildrenMoved dom' 2 1 :=
    hw.moveChildren_moves (by decide) fun hu => absurd hu hunder
  exact ⟨hw, by decide, hunder, hmoved, by decide +kernel, by decide +kernel⟩

end WellFormed

end RichDoc.Dom
