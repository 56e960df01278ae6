import RichDoc.Proofs.Build.Appending
import RichDoc.Proofs.Build.Grafting
import RichDoc.Proofs.Dom.Runs

/-!
# What grafting adds to a store

Grafting a subtree of one store into another adds one tree: every new node is at or below the copy
of the root, and the older nodes keep their cells. The nodes that are copied can be told in the
source, where they are those at or below the root that stand at or below no other comment.
-/

namespace RichDoc

namespace Tree

/-- A node is copied with its parent if it is copied with a child that is no comment. -/
theorem mem_copiedLinksOf_iff {link : Link} {trees : List Tree} :
    link ∈ copiedLinksOf trees ↔
      ∃ tree ∈ trees, ¬tree.isComment = true ∧ link ∈ tree.copiedLinks := by
  induction trees with
  | nil => simp [copiedLinksOf]
  | cons tree rest ih =>
    rw [copiedLinksOf]
    by_cases hcomment : tree.isComment = true
    · simp [hcomment, ih]
    · simp [hcomment, ih]

end Tree

namespace Dom

variable {s t u : Dom} {node : NodeId}

/-! ### The nodes that are copied -/

/-- A node at or below a root stays when the comments below the root are taken out, each with all
that is below it. -/
def Stays (dom : Dom) (root id : NodeId) : Prop :=
  dom.Under id root ∧ ∀ x, dom.Under id x → dom.Under x root → x ≠ root →
    ∀ text, dom.data? (some x) ≠ some (.comment text)

/-- What stays below a root stays below one of its children, which is no comment. -/
theorem WellFormed.stays_iff (hw : s.WellFormed) {root id : NodeId} :
    s.Stays root id ↔ id = root ∨ ∃ child ∈ s.children (some root),
      (∀ text, s.data? (some child) ≠ some (.comment text)) ∧ s.Stays child id := by
  constructor
  · rintro ⟨hunder, hclear⟩
    rcases Relation.ReflTransGen.cases_tail hunder with he | ⟨child, hchild, hparent⟩
    · exact Or.inl he.symm
    · have hroot : ∀ x, s.Under x child → x ≠ root := by
        rintro x hx rfl
        exact hw.not_under_parent hparent hx
      refine Or.inr ⟨child, hw.mem_children_iff.mpr hparent,
        hclear child hchild (.single hparent) (hroot child .refl), hchild, ?_⟩
      exact fun x hx hxc _ => hclear x hx (hxc.tail hparent) (hroot x hxc)
  · rintro (rfl | ⟨child, hchild, hdata, hunder, hclear⟩)
    · refine ⟨.refl, fun x hx hxr hne => ?_⟩
      rcases Relation.ReflTransGen.cases_head hx with he | ⟨p, hp, hpx⟩
      · exact absurd he.symm hne
      · exact absurd (hpx.trans hxr) (hw.not_under_parent hp)
    · have hparent := hw.mem_children_iff.mp hchild
      refine ⟨hunder.tail hparent, fun x hx hxr hne => ?_⟩
      rcases Relation.ReflTransGen.cases_tail hxr with he | ⟨other, hother, hparent'⟩
      · exact absurd he.symm hne
      · obtain rfl := hw.eq_of_under_children hparent hparent' hunder (hx.trans hother)
        by_cases he : x = child
        · rw [he]
          exact hdata
        · exact hclear x hx hother he

/-- A tree is a comment if its root is one. -/
theorem WellFormed.isComment_tree (hw : s.WellFormed) {id : NodeId} (hid : id < s.size) :
    (s.tree (some id)).isComment = true ↔ ∃ text, s.data? (some id) = some (.comment text) := by
  rw [WellFormed.data?_eq s hid, hw.tree_eq hid, Tree.isComment, Tree.data?]
  cases s.cells[id].data <;> simp [NodeData.isComment]

/-- The nodes that are copied are those that stay. -/
theorem WellFormed.mem_copiedLinks_iff (hw : s.WellFormed) (root : NodeId) (hroot : root < s.size)
    (link : Link) :
    link ∈ (s.tree (some root)).copiedLinks ↔ ∃ id, link = some id ∧ s.Stays root id := by
  induction root using hw.induction_children with
  | step root ih =>
    have hchild : ∀ child ∈ s.children (some root),
        (¬(s.tree (some child)).isComment = true ∧ link ∈ (s.tree (some child)).copiedLinks ↔
          ∃ id, link = some id ∧ (∀ text, s.data? (some child) ≠ some (.comment text)) ∧
            s.Stays child id) := by
      intro child hchild
      have hlt := hw.lt_size_of_mem_children hchild
      rw [ih child hchild hlt, hw.isComment_tree hlt, not_exists]
      tauto
    rw [hw.tree_eq hroot, Tree.copiedLinks, List.mem_cons, Tree.mem_copiedLinksOf_iff, childTrees]
    constructor
    · rintro (rfl | ⟨tree, htree, hin⟩)
      · exact ⟨root, rfl, hw.stays_iff.mpr (Or.inl rfl)⟩
      · obtain ⟨child, hmem, rfl⟩ := List.mem_map.mp htree
        obtain ⟨id, rfl, hdata, hstays⟩ := (hchild child hmem).mp hin
        exact ⟨id, rfl, hw.stays_iff.mpr (Or.inr ⟨child, hmem, hdata, hstays⟩)⟩
    · rintro ⟨id, rfl, hstays⟩
      rcases hw.stays_iff.mp hstays with rfl | ⟨child, hmem, hdata, hstays⟩
      · exact Or.inl rfl
      · exact Or.inr ⟨_, List.mem_map_of_mem hmem,
          (hchild child hmem).mpr ⟨id, rfl, hdata, hstays⟩⟩

/-! ### The nodes that are new -/

/-- Everything that is new in a store is at or below a node. -/
def NewUnder (s t : Dom) (node : NodeId) : Prop :=
  ∀ x, s.size ≤ x → x < t.size → t.Under x node

/-- What is at or below a node stays there. -/
theorem Grows.under {outer : NodeId → Prop} (h : Grows outer s t) {x y : NodeId}
    (hu : s.Under x y) : t.Under x y := by
  induction hu using Relation.ReflTransGen.head_induction_on with
  | refl => exact .refl
  | @head x q hx _ ih => exact .head ((h.parent_eq x (lt_size_of_parent hx)).trans hx) ih

/-- When a new tree is hung on a node, all that is new is below that node. The ways up to the root
of the tree do not use the parent that the root gets. -/
theorem NewUnder.hang {made : Rendered NodeId} {outline : Outline} (hn : NewUnder s t made.root)
    (h : Makes s t made outline) (hnode : node < s.size) :
    NewUnder s (t.append (some node) (some made.root)) node := by
  have hnew := h.root_new
  have hunder : ¬t.Under node made.root := fun hu =>
    absurd hnode (Nat.not_lt.mpr (h.grows.le_of_under hu hnew.1))
  obtain ⟨hr, hparent⟩ := h.grows.after.append_detached
    (Nat.lt_of_lt_of_le hnode h.grows.size_le) hnew.2 h.detached hunder
  have hroot : (t.append (some node) (some made.root)).parent (some made.root) = some node := by
    rw [← hr.wellFormed.mem_children_iff, hr.children_eq, if_pos rfl]
    exact List.mem_append_right _ (List.mem_singleton.mpr rfl)
  intro x hx hlt
  rw [size_append] at hlt
  refine Relation.ReflTransGen.tail ?_ hroot
  have hpath := hn x hx hlt
  clear hx hlt
  induction hpath using Relation.ReflTransGen.head_induction_on with
  | refl => exact .refl
  | @head x q hxq hqr ih =>
    have hne : x ≠ made.root := by
      rintro rfl
      rw [h.detached] at hxq
      cases hxq
    exact .head ((hparent x hne).trans hxq) ih

/-- Attributes make no nodes. -/
theorem size_buildAttributes (s : Dom) (node : NodeId) (attrs : List Attribute) :
    (buildAttributes s node attrs).size = s.size := by
  induction attrs generalizing s with
  | nil => rfl
  | cons a rest ih => exact (ih _).trans (size_setAttribute ..)

/-- The copy of a node without its children is one node. -/
theorem graftRoot_new (s : Dom) (data : NodeData) :
    (graftRoot s (some data)).1 = s.size ∧ (graftRoot s (some data)).2.size = s.size + 1 := by
  cases data with
  | element name attrs => exact ⟨rfl, (size_buildAttributes ..).trans (size_create ..)⟩
  | text text => exact ⟨rfl, size_create ..⟩
  | document => exact ⟨rfl, size_create ..⟩
  | comment text => exact ⟨rfl, size_create ..⟩

mutual

/-- All that grafting makes is at or below the copy of the root. -/
theorem graft_newUnder (mark : Option Link) : (tree : Tree) → tree.links.Nodup → {s : Dom} →
    s.WellFormed → NewUnder s (graft s mark tree).2 (graft s mark tree).1.1
  | .node id data children, hn, s, hs => by
    rw [Tree.links, List.nodup_cons] at hn
    have hroot := graftRoot_makes hs data
    obtain ⟨hid, hsize⟩ := graftRoot_new s data
    have hbelow := graftChildren_newUnder mark (graftRoot s (some data)).1 children hn.2
      hroot.grows.after hroot.root_new.2
    rw [graft_node]
    intro x hx hlt
    by_cases he : x = s.size
    · rw [he, ← hid]
      exact .refl
    · exact hbelow x (by omega) hlt
  | .absent link, _, s, hs => by
    intro x hx hlt
    have hone : (graft s mark (.absent link)).2.size = s.size + 1 := size_create s .document
    obtain rfl : x = s.size := by omega
    exact .refl

/-- All that is new in the copies of trees is below the node that they are hung on. -/
theorem graftChildren_newUnder (mark : Option Link) (parent : NodeId) : (trees : List Tree) →
    (Tree.linksOf trees).Nodup → {s : Dom} → s.WellFormed → parent < s.size →
    NewUnder s (graftChildren s mark parent trees).2 parent
  | [], _, s, _, _ => fun x hx hlt => absurd hlt (Nat.not_lt.mpr hx)
  | tree :: rest, hn, s, hs, hp => by
    rw [Tree.linksOf, List.nodup_append] at hn
    by_cases hcomment : tree.isComment = true
    · rw [graftChildren_comment hcomment]
      exact graftChildren_newUnder mark parent rest hn.2.1 hs hp
    · have hmakes := graft_makes mark tree hn.1 hs
      have hhang := hmakes.hang hp
      have hfirst := (graft_newUnder mark tree hn.1 hs).hang hmakes hp
      have hparent := Nat.lt_of_lt_of_le hp hhang.grows.size_le
      have hrest := graftChildren_newUnder mark parent rest hn.2.1 hhang.grows.after hparent
      have hgrows := (graftChildren_fills mark parent rest hn.2.1 hhang.grows.after hparent).grows
      rw [graftChildren_cons hcomment]
      intro x hx hlt
      by_cases hold : x < ((graft s mark tree).2.append (some parent)
          (some (graft s mark tree).1.1)).size
      · exact hgrows.under (hfirst x hx hold)
      · exact hrest x (Nat.le_of_not_lt hold) hlt

end

/-! ### Grafting a subtree -/

/-- A copy of the subtree at a root of one store has been added to another one. -/
structure Copies (source : Dom) (root : NodeId) (mark : Option Link) (target made : Dom)
    (copy : NodeId) (marked : Option NodeId) : Prop where
  wellFormed : made.WellFormed
  size_le : target.size ≤ made.size
  /-- The nodes that were there are as they were. -/
  unchanged : ∀ id < target.size, made.get? (some id) = target.get? (some id)
  /-- What is new is one tree, and the copy is its root. -/
  detached : made.parent (some copy) = none
  under_iff : ∀ id < made.size, made.Under id copy ↔ target.size ≤ id
  copy_lt : copy < made.size
  /-- The tree is the subtree without the comments below its root, with the payloads that copies
  have. The reported node, if there is one, is the copy of the marked node. -/
  outline_eq : (made.tree (some copy)).outline marked = (source.tree (some root)).copied mark
  /-- A copy is reported exactly if the marked node is in the subtree and is not taken out. -/
  isSome_iff : marked.isSome = true ↔ ∃ id, mark = some (some id) ∧ source.Stays root id

/-- Grafting a subtree of a well-formed store into another one adds one copy of it, reports the copy
of the marked node, and changes nothing that was there. -/
theorem graft_copies {source target : Dom} (hs : source.WellFormed) (ht : target.WellFormed)
    {root : NodeId} (hroot : root < source.size) (mark : Option Link) :
    ∃ copy marked made, graft target mark (source.tree (some root)) = ((copy, marked), made) ∧
      Copies source root mark target made copy marked := by
  have hnodup := hs.nodup_links (some root)
  have hmakes := graft_makes mark (source.tree (some root)) hnodup ht
  have hnew := graft_newUnder mark (source.tree (some root)) hnodup ht
  refine ⟨_, _, _, rfl, hmakes.grows.after, hmakes.grows.size_le, fun id hid => ?_,
    hmakes.detached, fun id hid => ⟨fun hu => ?_, fun hle => hnew id hle hid⟩, hmakes.root_new.2,
    hmakes.outline_eq, ?_⟩
  · exact hmakes.grows.get?_eq hid
  · exact hmakes.grows.le_of_under hu hmakes.root_new.1
  · rw [isSome_graft]
    simp only [hs.mem_copiedLinks_iff root hroot]
    constructor
    · rintro ⟨link, ⟨id, rfl, hstays⟩, he⟩
      exact ⟨id, he, hstays⟩
    · rintro ⟨id, he, hstays⟩
      exact ⟨some id, ⟨id, rfl, hstays⟩, he⟩

/-- A store in which an element has two attributes of one local name, a comment with an element
below it, and another element. -/
def commentedDom : Dom :=
  [.create (.element ⟨.svg, "g"⟩ [⟨.html "id", "x"⟩, ⟨⟨.xml, "id"⟩, "y"⟩]), .create (.comment "c"),
    .append 1 2, .create (.element (.html "b") []), .append 2 3,
    .create (.element (.html "i") []), .append 1 4].foldl Edit.apply .empty

/-- The element with the comment is made by allowed edits. -/
theorem wellFormed_commentedDom : commentedDom.WellFormed := by
  have helement := Reachable.empty.edit
    (.create (.element ⟨.svg, "g"⟩ [⟨.html "id", "x"⟩, ⟨⟨.xml, "id"⟩, "y"⟩])) trivial
  have hcomment := helement.edit (.create (.comment "c")) trivial
  have hhung := hcomment.edit (.append 1 2)
    ⟨by decide, by decide, not_under_of_parent_none rfl (by decide)⟩
  have hmade := hhung.edit (.create (.element (.html "b") [])) trivial
  have hbelow := hmade.edit (.append 2 3) ⟨by decide, by decide,
    not_under_of_parent rfl (by decide) (not_under_of_parent_none rfl (by decide))⟩
  have hlast := hbelow.edit (.create (.element (.html "i") [])) trivial
  exact (hlast.edit (.append 1 4)
    ⟨by decide, by decide, not_under_of_parent_none rfl (by decide)⟩).wellFormed

/-- The copy is a new tree behind an older text. Neither the comment nor what is below it is in it,
and its child is the copy of the marked node. -/
theorem graft_copies_sample :
    let target := (Dom.empty.create (.text "old")).2
    ∃ made, graft target (some (some 4)) (commentedDom.tree (some 1)) = ((2, some 3), made) ∧
      Copies commentedDom 1 (some (some 4)) target made 2 (some 3) ∧
      (made.tree (some 2)).outline (some 3) = .node (.element (.html "g") [⟨.html "id", "y"⟩]) false
        [.node (.element (.html "i") []) true []] := by
  obtain ⟨copy, marked, made, hgraft, hcopies⟩ := graft_copies wellFormed_commentedDom
    (wellFormed_empty.create (.text "old")) (by decide : 1 < commentedDom.size) (some (some 4))
  obtain ⟨hreported, hmade⟩ := Prod.mk.inj hgraft
  obtain ⟨rfl, rfl⟩ := Prod.mk.inj hreported
  exact ⟨made, hgraft, hcopies, hcopies.outline_eq⟩

end Dom

end RichDoc
