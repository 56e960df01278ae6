import RichDoc.Proofs.Dom.Editing
import RichDoc.Proofs.Dom.Outline
import RichDoc.Template.Render

/-!
# Trees that grow in a store

Building makes new nodes and hangs them on each other. A tree that is made does not touch the nodes
that were there, and a node that is filled gets new children behind the old ones. How the parts of
such work fit together is said once for all of it, in terms of the outlines of what is built.
-/

namespace RichDoc.Dom

variable {s t u : Dom} {node : NodeId}

/-! ### Trees that stay, and trees that are filled -/

/-- A tree stays when nothing in it changes. -/
theorem tree_eq_of_under (hs : s.WellFormed) (ht : t.WellFormed) (id : NodeId) (hid : id < s.size)
    (h : ∀ x, s.Under x id → t.data? (some x) = s.data? (some x) ∧
      t.children (some x) = s.children (some x)) :
    t.tree (some id) = s.tree (some id) := by
  induction id using hs.induction_children with
  | step id ih =>
    obtain ⟨hdata, hkids⟩ := h id .refl
    have hold := WellFormed.data?_eq s hid
    rw [(hs.tree_of_data? hold).2, (ht.tree_of_data? (hdata.trans hold)).2, childTrees, childTrees,
      hkids]
    refine congrArg _ (List.map_congr_left fun child hchild => ?_)
    refine ih child hchild (hs.lt_size_of_mem_children hchild) fun x hx => h x ?_
    exact hx.tail (hs.mem_children_iff.mp hchild)

theorem outlines_childTrees (dom : Dom) (hole : Option NodeId) (link : Link) :
    Tree.outlines hole (dom.childTrees link) =
      (dom.children link).map fun child => (dom.tree (some child)).outline hole := by
  rw [Tree.outlines_eq_map, childTrees, List.map_map]
  rfl

/-- A tree is filled when one of its nodes gets further children. -/
theorem outline_eq_fill (hs : s.WellFormed) (ht : t.WellFormed) {kids : List NodeId}
    (id : NodeId) (hid : id < s.size)
    (h : ∀ x, s.Under x id → t.data? (some x) = s.data? (some x) ∧
      t.children (some x) = s.children (some x) ++ if x = node then kids else []) :
    (t.tree (some id)).outline none =
      ((s.tree (some id)).outline (some node)).fill
        (kids.map fun kid => (t.tree (some kid)).outline none) := by
  induction id using hs.induction_children with
  | step id ih =>
    obtain ⟨hdata, hkids⟩ := h id .refl
    obtain ⟨data, hold⟩ : ∃ data, s.data? (some id) = some data := ⟨_, WellFormed.data?_eq s hid⟩
    have hfilled : ∀ child ∈ s.children (some id),
        (t.tree (some child)).outline none =
          ((s.tree (some child)).outline (some node)).fill
            (kids.map fun kid => (t.tree (some kid)).outline none) := by
      intro child hchild
      refine ih child hchild (hs.lt_size_of_mem_children hchild) fun x hx => h x ?_
      exact hx.tail (hs.mem_children_iff.mp hchild)
    rw [(hs.tree_of_data? hold).2, (ht.tree_of_data? (hdata.trans hold)).2, Tree.outline,
      Tree.outline, Outline.fill, Outline.fillAll_eq_map, outlines_childTrees,
      outlines_childTrees, hkids, List.map_append, List.map_map, List.map_congr_left hfilled]
    by_cases hnode : id = node
    · simp [hnode, Function.comp_def]
    · have hne : ¬node = id := fun he => hnode he.symm
      simp [hnode, hne, Function.comp_def]

/-! ### Growing -/

/-- A forest grows into a forest: its nodes stay as they are, but outer nodes may get further
children. -/
structure Grows (outer : NodeId → Prop) (s t : Dom) : Prop where
  before : s.WellFormed
  after : t.WellFormed
  size_le : s.size ≤ t.size
  data_eq : ∀ id < s.size, t.data? (some id) = s.data? (some id)
  parent_eq : ∀ id < s.size, t.parent (some id) = s.parent (some id)
  children_eq : ∀ id < s.size, ¬outer id → t.children (some id) = s.children (some id)

namespace Grows

variable {outer other : NodeId → Prop}

theorem refl (outer : NodeId → Prop) (hs : s.WellFormed) : Grows outer s s :=
  ⟨hs, hs, Nat.le_refl _, fun _ _ => rfl, fun _ _ => rfl, fun _ _ _ => rfl⟩

/-- What grows twice grows. Nodes that are new in between do not matter. -/
theorem trans (h : Grows outer s t) (h' : Grows other t u)
    (ho : ∀ id < s.size, other id → outer id) : Grows outer s u where
  before := h.before
  after := h'.after
  size_le := Nat.le_trans h.size_le h'.size_le
  data_eq id hid :=
    (h'.data_eq id (Nat.lt_of_lt_of_le hid h.size_le)).trans (h.data_eq id hid)
  parent_eq id hid :=
    (h'.parent_eq id (Nat.lt_of_lt_of_le hid h.size_le)).trans (h.parent_eq id hid)
  children_eq id hid hn :=
    (h'.children_eq id (Nat.lt_of_lt_of_le hid h.size_le) fun ho' => hn (ho id hid ho')).trans
      (h.children_eq id hid hn)

/-- Changes that leave all links, and the payloads of older nodes, do not matter. -/
theorem sameLinks (h : Grows outer s t) (hl : SameLinks t u) (hsize : t.size ≤ u.size)
    (hdata : ∀ id < s.size, u.data? (some id) = t.data? (some id)) : Grows outer s u where
  before := h.before
  after := hl.wellFormed h.after hsize
  size_le := Nat.le_trans h.size_le hsize
  data_eq id hid := (hdata id hid).trans (h.data_eq id hid)
  parent_eq id hid := (hl.parent_eq _).trans (h.parent_eq id hid)
  children_eq id hid hn := (hl.children_eq h.after id).trans (h.children_eq id hid hn)

/-- What is put into a node that is new in between does not matter either. -/
theorem trans_new (h : Grows outer s t) (h' : Grows (fun id => id = node) t u)
    (hnew : s.size ≤ node) : Grows outer s u :=
  h.trans h' fun _ hid he => absurd (he ▸ hid) (Nat.not_lt.mpr hnew)

/-- What stands below a new node is new. -/
theorem le_of_under (h : Grows outer s t) {x y : NodeId} (hu : t.Under x y) (hy : s.size ≤ y) :
    s.size ≤ x := by
  induction hu using Relation.ReflTransGen.head_induction_on with
  | refl => exact hy
  | @head x q hx _ ih =>
    by_contra hlt
    have hparent := h.parent_eq x (Nat.lt_of_not_le hlt)
    rw [hx] at hparent
    exact absurd (h.before.parents x q hparent.symm) (Nat.not_lt.mpr ih)

/-- What stands below an older node is older, unless further children were hung on something. -/
theorem lt_of_under (h : Grows (fun _ => False) s t) {x y : NodeId} (hu : t.Under x y)
    (hy : y < s.size) : x < s.size := by
  induction hu using Relation.ReflTransGen.head_induction_on with
  | refl => exact hy
  | @head x q hx _ ih =>
    rw [← h.after.mem_children_iff, h.children_eq q ih not_false] at hx
    exact h.before.lt_size_of_mem_children hx

/-- A tree without outer nodes stays. -/
theorem tree_eq (h : Grows outer s t) {id : NodeId} (hid : id < s.size)
    (ho : ∀ x, s.Under x id → ¬outer x) : t.tree (some id) = s.tree (some id) := by
  refine tree_eq_of_under h.before h.after id hid fun x hx => ?_
  have hlt := lt_size_of_under hx hid
  exact ⟨h.data_eq x hlt, h.children_eq x hlt (ho x hx)⟩

/-- New nodes of a new tree are neither older nor younger than the work that made them. -/
theorem bounds_of_mem_nodes (h : Grows outer s t) {id : NodeId} (hid : s.size ≤ id)
    (hlt : id < t.size) : ∀ x ∈ (t.tree (some id)).nodes, s.size ≤ x.1 ∧ x.1 < t.size := by
  intro x hx
  obtain ⟨hunder, hx, -⟩ := h.after.of_mem_nodes id hlt x hx
  exact ⟨h.le_of_under hunder hid, hx⟩

/-- A hole that is made earlier or later does not stand in a new tree. -/
theorem outline_eq (h : Grows outer s t) {id : NodeId} (hid : s.size ≤ id) (hlt : id < t.size)
    {hole : Option NodeId} (hh : ∀ x ∈ hole, x < s.size ∨ t.size ≤ x) :
    (t.tree (some id)).outline hole = (t.tree (some id)).outline none := by
  refine Tree.outline_congr _ fun x hx => ?_
  obtain ⟨hle, hlt⟩ := h.bounds_of_mem_nodes hid hlt x hx
  refine iff_of_false (fun he => ?_) nofun
  rcases hh x.1 he with hx | hx
  · exact absurd hx (Nat.not_lt.mpr hle)
  · exact absurd hlt (Nat.not_lt.mpr hx)

end Grows

/-- Children that come behind the ones that were there are new. -/
theorem Grows.le_of_appended {outer : NodeId → Prop} (h : Grows outer s t)
    {kids : List NodeId} (hk : t.children (some node) = s.children (some node) ++ kids)
    {kid : NodeId} (hkid : kid ∈ kids) : s.size ≤ kid ∧ kid < t.size := by
  have hmem : kid ∈ t.children (some node) := by
    rw [hk]
    exact List.mem_append_right _ hkid
  refine ⟨?_, h.after.lt_size_of_mem_children hmem⟩
  by_contra hlt
  have hparent := h.after.mem_children_iff.mp hmem
  rw [h.parent_eq kid (Nat.lt_of_not_le hlt), ← h.before.mem_children_iff] at hparent
  have hnodup := h.after.nodup_children node
  rw [hk, List.nodup_append] at hnodup
  exact hnodup.2.2 kid hparent kid hkid rfl

/-- A detached node that is appended becomes the last child, and nothing else changes. -/
theorem WellFormed.append_detached (hw : t.WellFormed) {p x : NodeId} (hp : p < t.size)
    (hx : x < t.size) (hdetached : t.parent (some x) = none) (hu : ¬t.Under p x) :
    (t.Rearranges (t.append (some p) (some x)) fun id =>
        t.children (some id) ++ if id = p then [x] else []) ∧
      ∀ y ≠ x, (t.append (some p) (some x)).parent (some y) = t.parent (some y) := by
  have hr := hw.append hp hx hu
  have hnot : ∀ id, x ∉ t.children (some id) := by
    intro id hmem
    rw [hw.mem_children_iff, hdetached] at hmem
    cases hmem
  have hkids : ∀ id, (t.append (some p) (some x)).children (some id) =
      t.children (some id) ++ if id = p then [x] else [] := by
    intro id
    rw [hr.children_eq, List.erase_of_not_mem (hnot id)]
    split
    · rfl
    · rw [List.append_nil]
  refine ⟨⟨hr.size_eq, hr.data_eq, hr.wellFormed, hkids⟩, fun y hy => ?_⟩
  refine Option.ext fun q => ?_
  rw [← hr.wellFormed.mem_children_iff, ← hw.mem_children_iff, hkids, List.mem_append]
  have hnew : y ∉ if q = p then [x] else [] := by
    split
    · exact fun h => hy (List.mem_singleton.mp h)
    · exact List.not_mem_nil
  exact or_iff_left hnew

/-- A new node that is detached is appended to an outer node or a new one. -/
theorem Grows.append_new {outer : NodeId → Prop} (h : Grows outer s t) {p x : NodeId}
    (hp : outer p ∨ s.size ≤ p) (hx : s.size ≤ x)
    (hr : t.Rearranges (t.append (some p) (some x)) fun id =>
      t.children (some id) ++ if id = p then [x] else [])
    (hparent : ∀ y ≠ x, (t.append (some p) (some x)).parent (some y) = t.parent (some y)) :
    Grows outer s (t.append (some p) (some x)) where
  before := h.before
  after := hr.wellFormed
  size_le := hr.size_eq ▸ h.size_le
  data_eq id hid := (hr.data_eq _).trans (h.data_eq id hid)
  parent_eq id hid :=
    (hparent id (Nat.ne_of_lt (Nat.lt_of_lt_of_le hid hx))).trans (h.parent_eq id hid)
  children_eq id hid hn := by
    have hne : id ≠ p := by
      rintro rfl
      exact hp.elim hn fun hnew => absurd hid (Nat.not_lt.mpr hnew)
    rw [hr.children_eq, if_neg hne, List.append_nil]
    exact h.children_eq id hid hn

/-! ### Making and filling -/

/-- Work makes a tree that hangs on nothing, with its hole among the new nodes. -/
structure Makes (s t : Dom) (made : Rendered NodeId) (outline : Outline) : Prop where
  grows : Grows (fun _ => False) s t
  root_new : s.size ≤ made.root ∧ made.root < t.size
  detached : t.parent (some made.root) = none
  hole_new : ∀ h ∈ made.hole, s.size ≤ h ∧ h < t.size
  outline_eq : (t.tree (some made.root)).outline made.hole = outline

/-- Work fills a node: behind its children come new ones, with the hole among the new nodes. -/
structure Fills (node : NodeId) (s t : Dom) (hole : Option NodeId) (outlines : List Outline) :
    Prop where
  grows : Grows (fun id => id = node) s t
  hole_new : ∀ h ∈ hole, s.size ≤ h ∧ h < t.size
  children : ∃ kids, t.children (some node) = s.children (some node) ++ kids ∧
    kids.map (fun kid => (t.tree (some kid)).outline hole) = outlines

/-- Where there is no hole, nothing is asked of it. -/
theorem forall_mem_none {q : NodeId → Prop} : ∀ h ∈ (none : Option NodeId), q h :=
  fun h hmem => absurd hmem (Option.not_mem_none h)

/-- A new node is a tree of its own. -/
theorem makes_create (hs : s.WellFormed) (data : NodeData) :
    Makes s (s.create data).2 ⟨s.size, none⟩ (.node data false []) := by
  have hsame := sameLinks_create s data
  have hsize : s.size < (s.create data).2.size := by simp
  have ht := hsame.wellFormed hs (Nat.le_of_lt hsize)
  have hdata : (s.create data).2.data? (some s.size) = some data := by
    rw [data?, get?_create, if_pos rfl]
    rfl
  have hkids : (s.create data).2.children (some s.size) = [] :=
    (hsame.children_eq hs _).trans (hs.children_of_le (Nat.le_refl _))
  refine ⟨(Grows.refl _ hs).sameLinks hsame (Nat.le_of_lt hsize) fun id hid => ?_,
    ⟨Nat.le_refl _, hsize⟩, ?_, forall_mem_none, ?_⟩
  · rw [data?, get?_create, if_neg (Nat.ne_of_lt hid), data?]
  · rw [parent, get?_create, if_pos rfl]
    rfl
  · rw [(ht.tree_of_data? hdata).2, Tree.outline, outlines_childTrees, hkids]
    rfl

namespace Makes

variable {made : Rendered NodeId} {outline : Outline}

/-- A tree that was made is hung on an older node. -/
theorem hang (h : Makes s t made outline) (hnode : node < s.size) :
    Fills node s (t.append (some node) (some made.root)) made.hole [outline] := by
  have hnew := h.root_new
  have hlt : node < t.size := Nat.lt_of_lt_of_le hnode h.grows.size_le
  have hunder : ∀ x, t.Under x made.root → x ≠ node := by
    rintro x hx rfl
    exact absurd hnode (Nat.not_lt.mpr (h.grows.le_of_under hx hnew.1))
  obtain ⟨hr, hparent⟩ := h.grows.after.append_detached hlt hnew.2 h.detached
    fun hu => hunder node hu rfl
  have hkids : ∀ x ≠ node, (t.append (some node) (some made.root)).children (some x) =
      t.children (some x) := by
    intro x hx
    rw [hr.children_eq, if_neg hx, List.append_nil]
  have hgrows : Grows (fun id => id = node) s t :=
    (Grows.refl _ h.grows.before).trans h.grows fun _ _ ho => ho.elim
  refine ⟨hgrows.append_new (Or.inl rfl) hnew.1 hr hparent, ?_, [made.root], ?_, ?_⟩
  · rw [hr.size_eq]
    exact h.hole_new
  · rw [hr.children_eq, if_pos rfl, h.grows.children_eq node hnode not_false]
  · have htree : (t.append (some node) (some made.root)).tree (some made.root) =
        t.tree (some made.root) :=
      tree_eq_of_under h.grows.after hr.wellFormed made.root hnew.2 fun x hx =>
        ⟨hr.data_eq _, hkids x (hunder x hx)⟩
    rw [List.map_singleton, htree, h.outline_eq]

/-- A tree that was made gets its content. -/
theorem fill {root hole : NodeId} {outlines : List Outline}
    (h : Makes s t ⟨root, some hole⟩ outline) (hf : Fills hole t u none outlines) :
    Makes s u ⟨root, none⟩ (outline.fill outlines) := by
  obtain ⟨kids, hkids, houtlines⟩ := hf.children
  have hnew := h.root_new
  have hhole := h.hole_new hole rfl
  have hgrows := h.grows.trans_new hf.grows hhole.1
  refine ⟨hgrows, ⟨hnew.1, Nat.lt_of_lt_of_le hnew.2 hf.grows.size_le⟩, ?_, forall_mem_none, ?_⟩
  · rw [hf.grows.parent_eq root hnew.2]
    exact h.detached
  · rw [← h.outline_eq, ← houtlines]
    refine outline_eq_fill h.grows.after hf.grows.after root hnew.2 fun x hx => ?_
    have hlt := lt_size_of_under hx hnew.2
    refine ⟨hf.grows.data_eq x hlt, ?_⟩
    by_cases hxh : x = hole
    · rw [if_pos hxh, hxh, hkids]
    · rw [if_neg hxh, List.append_nil, hf.grows.children_eq x hlt hxh]

end Makes

namespace Fills

variable {hole hole' : Option NodeId} {outlines others : List Outline}

/-- Nothing is put into a node. -/
theorem nil (node : NodeId) (hs : s.WellFormed) : Fills node s s none [] :=
  ⟨.refl _ hs, forall_mem_none, [], (List.append_nil _).symm, rfl⟩

/-- The children that a node got stay when something else is hung behind them. -/
theorem map_outline_eq {outer : NodeId → Prop} {kids : List NodeId} (h : Grows outer s t)
    (hk : t.children (some node) = s.children (some node) ++ kids)
    (hg : Grows (fun id => id = node) t u) :
    ∀ kid ∈ kids, u.tree (some kid) = t.tree (some kid) := by
  intro kid hkid
  refine hg.tree_eq (h.le_of_appended hk hkid).2 fun x hx he => ?_
  have hmem : kid ∈ t.children (some node) := by
    rw [hk]
    exact List.mem_append_right _ hkid
  exact h.after.not_under_parent (h.after.mem_children_iff.mp hmem) (he ▸ hx)

/-- A node is filled with one thing behind another. At most one of them brings a hole, and the
children of the other come before or after it. -/
theorem append (h : Fills node s t hole outlines) (h' : Fills node t u hole' others)
    (hone : hole = none ∨ hole' = none) :
    Fills node s u (hole'.or hole) (outlines ++ others) := by
  obtain ⟨kids, hkids, houtlines⟩ := h.children
  obtain ⟨kids', hkids', hothers⟩ := h'.children
  have hgrows := h.grows.trans h'.grows fun _ _ he => he
  refine ⟨hgrows, ?_, kids ++ kids', ?_, ?_⟩
  · intro x hx
    rcases Option.or_eq_some_iff.mp hx with hx | ⟨-, hx⟩
    · exact ⟨Nat.le_trans h.grows.size_le (h'.hole_new x hx).1, (h'.hole_new x hx).2⟩
    · exact ⟨(h.hole_new x hx).1, Nat.lt_of_lt_of_le (h.hole_new x hx).2 h'.grows.size_le⟩
  · rw [hkids', hkids, List.append_assoc]
  · have hfirst : ∀ kid ∈ kids, (u.tree (some kid)).outline (hole'.or hole) =
        (t.tree (some kid)).outline hole := by
      intro kid hkid
      rw [map_outline_eq h.grows hkids h'.grows kid hkid]
      rcases hone with rfl | rfl
      · obtain ⟨hle, hlt⟩ := h.grows.le_of_appended hkids hkid
        rw [Option.or_none]
        exact h.grows.outline_eq hle hlt fun x hx => Or.inr (h'.hole_new x hx).1
      · rfl
    have hsecond : ∀ kid ∈ kids', (u.tree (some kid)).outline (hole'.or hole) =
        (u.tree (some kid)).outline hole' := by
      intro kid hkid
      rcases hone with rfl | rfl
      · rw [Option.or_none]
      · obtain ⟨hle, hlt⟩ := h'.grows.le_of_appended hkids' hkid
        rw [Option.none_or]
        exact h'.grows.outline_eq hle hlt fun x hx => Or.inl (h.hole_new x hx).2
    rw [List.map_append, List.map_congr_left hfirst, List.map_congr_left hsecond, houtlines,
      hothers]

/-- The hole that a node got is filled. -/
theorem fill {h : NodeId} (hf : Fills node s t (some h) outlines) (hg : Fills h t u none others)
    (hnode : node < s.size) :
    Fills node s u none (Outline.fillAll others outlines) := by
  obtain ⟨kids, hkids, houtlines⟩ := hf.children
  obtain ⟨inner, hinner, hothers⟩ := hg.children
  have hhole := hf.hole_new h rfl
  have hgrows := hf.grows.trans_new hg.grows hhole.1
  have hne : node ≠ h := Nat.ne_of_lt (Nat.lt_of_lt_of_le hnode hhole.1)
  refine ⟨hgrows, forall_mem_none, kids, ?_, ?_⟩
  · rw [hg.grows.children_eq node (Nat.lt_of_lt_of_le hnode hf.grows.size_le) hne, hkids]
  · rw [Outline.fillAll_eq_map, ← houtlines, List.map_map, ← hothers]
    refine List.map_congr_left fun kid hkid => ?_
    have hlt := (hf.grows.le_of_appended hkids hkid).2
    refine outline_eq_fill hf.grows.after hg.grows.after kid hlt fun x hx => ?_
    have hx := lt_size_of_under hx hlt
    refine ⟨hg.grows.data_eq x hx, ?_⟩
    by_cases hxh : x = h
    · rw [if_pos hxh, hxh, hinner]
    · rw [if_neg hxh, List.append_nil, hg.grows.children_eq x hx hxh]

end Fills

namespace Makes

variable {data : NodeData} {hole : Option NodeId} {outlines : List Outline}

/-- The payload of a node whose outline is known, which has no children yet. -/
theorem data?_eq (h : Makes s t ⟨node, none⟩ (.node data false [])) :
    t.data? (some node) = some data ∧ t.children (some node) = [] := by
  have hdata := WellFormed.data?_eq t h.root_new.2
  have houtline := h.outline_eq
  rw [(h.grows.after.tree_of_data? hdata).2, Tree.outline, outlines_childTrees,
    Outline.node.injEq] at houtline
  exact ⟨hdata.trans (congrArg some houtline.1), List.map_eq_nil_iff.mp houtline.2.2⟩

/-- A node that is filled as soon as it is made. Its hole comes with what is put into it, or it is
the hole itself. -/
private theorem of_fills_with (h : Makes s t ⟨node, none⟩ (.node data false []))
    (hf : Fills node t u hole outlines) (hole' : Option NodeId)
    (hnew : ∀ x ∈ hole', s.size ≤ x ∧ x < u.size)
    (hsame : ∀ x, t.size ≤ x → (hole' = some x ↔ hole = some x)) :
    Makes s u ⟨node, hole'⟩ (.node data (decide (hole' = some node)) outlines) := by
  obtain ⟨kids, hkids, houtlines⟩ := hf.children
  obtain ⟨hdata, hnone⟩ := h.data?_eq
  have hroot := h.root_new
  have hgrows := h.grows.trans_new hf.grows hroot.1
  refine ⟨hgrows, ⟨hroot.1, Nat.lt_of_lt_of_le hroot.2 hf.grows.size_le⟩, ?_, hnew, ?_⟩
  · rw [hf.grows.parent_eq node hroot.2]
    exact h.detached
  · have hdata' := (hf.grows.data_eq node hroot.2).trans hdata
    rw [hnone, List.nil_append] at hkids
    rw [(hf.grows.after.tree_of_data? hdata').2, Tree.outline, outlines_childTrees, hkids,
      ← houtlines]
    congr 1
    refine List.map_congr_left fun kid hkid => Tree.outline_congr _ fun x hx => ?_
    have hkids' : u.children (some node) = t.children (some node) ++ kids := by
      rw [hkids, hnone, List.nil_append]
    obtain ⟨hle, hlt⟩ := hf.grows.le_of_appended hkids' hkid
    exact hsame x.1 (hf.grows.bounds_of_mem_nodes hle hlt x hx).1

/-- A node that is filled as soon as it is made. -/
theorem of_fills (h : Makes s t ⟨node, none⟩ (.node data false []))
    (hf : Fills node t u hole outlines) : Makes s u ⟨node, hole⟩ (.node data false outlines) := by
  have hne : ¬hole = some node := fun he =>
    absurd h.root_new.2 (Nat.not_lt.mpr (hf.hole_new node he).1)
  have hnew : ∀ x ∈ hole, s.size ≤ x ∧ x < u.size := fun x hx =>
    ⟨Nat.le_trans h.grows.size_le (hf.hole_new x hx).1, (hf.hole_new x hx).2⟩
  have hm := h.of_fills_with hf hole hnew fun _ _ => Iff.rfl
  rwa [decide_eq_false hne] at hm

/-- A node that is the hole may have children already. -/
theorem of_fills_here (h : Makes s t ⟨node, none⟩ (.node data false []))
    (hf : Fills node t u none outlines) :
    Makes s u ⟨node, some node⟩ (.node data true outlines) := by
  have hroot := h.root_new
  have hm := h.of_fills_with hf (some node)
    (fun x hx => Option.some.inj hx ▸ ⟨hroot.1, Nat.lt_of_lt_of_le hroot.2 hf.grows.size_le⟩)
    fun x hx => iff_of_false
      (fun he => absurd (Option.some.inj he ▸ hroot.2) (Nat.not_lt.mpr hx)) nofun
  rwa [decide_eq_true rfl] at hm

/-- An attribute that is set on a new element. -/
theorem setAttribute {name : QualName} {attrs : List Attribute}
    (h : Makes s t ⟨node, none⟩ (.node (.element name attrs) false [])) (key : QualName)
    (value : String) :
    Makes s (t.setAttribute (some node) key value) ⟨node, none⟩
      (.node (.element name (putAttribute attrs key value)) false []) := by
  obtain ⟨hdata, hnone⟩ := h.data?_eq
  have hsame := sameLinks_setAttribute t (some node) key value
  have hsize : (t.setAttribute (some node) key value).size = t.size := size_setAttribute ..
  have hroot := h.root_new
  have hgrows := h.grows.sameLinks hsame (Nat.le_of_eq hsize.symm) fun id hid => by
    rw [data?_setAttribute, if_neg (Nat.ne_of_lt (Nat.lt_of_lt_of_le hid hroot.1))]
  have hdata' : (t.setAttribute (some node) key value).data? (some node) =
      some (.element name (putAttribute attrs key value)) := by
    rw [data?_setAttribute, if_pos rfl, hdata, Option.map_some, NodeData.withAttribute]
  refine ⟨hgrows, hsize ▸ hroot, ?_, forall_mem_none, ?_⟩
  · rw [hsame.parent_eq]
    exact h.detached
  · rw [(hgrows.after.tree_of_data? hdata').2, Tree.outline, outlines_childTrees,
      hsame.children_eq h.grows.after, hnone]
    rfl

/-- A tree that was made before its wrapper is put into the wrapper. -/
theorem wrap {root inner hole : NodeId} {outline content : Outline}
    (h : Makes s t ⟨inner, none⟩ content) (h' : Makes t u ⟨root, some hole⟩ outline) :
    Makes s (u.append (some hole) (some inner)) ⟨root, none⟩ (outline.fill [content]) := by
  have hinner := h.root_new
  have hroot := h'.root_new
  have hhole := h'.hole_new hole rfl
  have hlt : inner < u.size := Nat.lt_of_lt_of_le hinner.2 h'.grows.size_le
  have hdetached : u.parent (some inner) = none :=
    (h'.grows.parent_eq inner hinner.2).trans h.detached
  have hunder : ∀ x, u.Under x inner → x ≠ hole := fun x hx =>
    Nat.ne_of_lt (Nat.lt_of_lt_of_le (h'.grows.lt_of_under hx hinner.2) hhole.1)
  obtain ⟨hr, hparent⟩ := h'.grows.after.append_detached hhole.2 hlt hdetached
    fun hu => hunder hole hu rfl
  have hgrows := h.grows.trans h'.grows fun _ _ he => he
  have hne : root ≠ inner := Nat.ne_of_gt (Nat.lt_of_lt_of_le hinner.2 hroot.1)
  refine ⟨hgrows.append_new (Or.inr (Nat.le_trans h.grows.size_le hhole.1)) hinner.1 hr hparent,
    ⟨Nat.le_trans h.grows.size_le hroot.1, hr.size_eq ▸ hroot.2⟩, ?_, forall_mem_none, ?_⟩
  · rw [hparent root hne]
    exact h'.detached
  · have htree : (u.append (some hole) (some inner)).tree (some inner) = t.tree (some inner) := by
      rw [← h'.grows.tree_eq hinner.2 fun _ _ => not_false]
      refine tree_eq_of_under h'.grows.after hr.wellFormed inner hlt fun x hx => ⟨hr.data_eq _, ?_⟩
      rw [hr.children_eq, if_neg (hunder x hx), List.append_nil]
    have hfill := outline_eq_fill h'.grows.after hr.wellFormed root hroot.2
      fun x _ => ⟨hr.data_eq _, hr.children_eq x⟩
    rw [hfill, h'.outline_eq, List.map_singleton, htree, h.outline_eq]

end Makes

end RichDoc.Dom
