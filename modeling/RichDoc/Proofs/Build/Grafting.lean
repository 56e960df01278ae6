import RichDoc.Proofs.Build.Filling
import RichDoc.Proofs.Dom.Attributes
import RichDoc.Proofs.Html.Markup

/-!
# Copies of trees

The copy of a tree has its nodes in their places, without the comments. The copy of the marked node
is reported when the node is copied, and in a tree that holds each node once there is no other one
to report.
-/

namespace RichDoc

/-- A comment has no children. -/
def NodeData.CommentEmpty (data : NodeData) (children : List Tree) : Prop :=
  data.isComment = true → children = []

/-- A comment that has no children is the only node of its tree. -/
theorem isComment_of_mem_nodes {tree : Tree} (hc : tree.Each NodeData.CommentEmpty)
    (hcomment : tree.isComment = true) : ∀ node ∈ tree.nodes, node.2.isComment = true := by
  cases tree with
  | node id data children =>
    obtain rfl := hc.1 hcomment
    rw [Tree.nodes, Tree.nodesOf]
    exact List.forall_mem_singleton.mpr hcomment
  | absent link => cases hcomment

/-! ### The nodes of a tree -/

namespace Tree

mutual

/-- The links of the nodes of a tree. -/
def links : Tree → List Link
  | .node id _ children => some id :: linksOf children
  | .absent link => [link]

/-- The links of the nodes of trees. -/
def linksOf : List Tree → List Link
  | [] => []
  | tree :: rest => links tree ++ linksOf rest

end

mutual

/-- The links of the nodes that are copied: not of the comments below the root, and not of what is
below these. -/
def copiedLinks : Tree → List Link
  | .node id _ children => some id :: copiedLinksOf children
  | .absent link => [link]

/-- The links of the nodes that are copied with their parent. -/
def copiedLinksOf : List Tree → List Link
  | [] => []
  | tree :: rest =>
    if tree.isComment then copiedLinksOf rest else copiedLinks tree ++ copiedLinksOf rest

end

mutual

theorem copiedLinks_subset : (tree : Tree) → tree.copiedLinks ⊆ tree.links
  | .node id _ children => by
    rw [copiedLinks, links]
    exact List.cons_subset_cons _ (copiedLinksOf_subset children)
  | .absent _ => List.Subset.refl _

theorem copiedLinksOf_subset : (trees : List Tree) → copiedLinksOf trees ⊆ linksOf trees
  | [] => List.Subset.refl _
  | tree :: rest => by
    rw [copiedLinksOf, linksOf]
    split
    · exact List.subset_append_of_subset_right _ (copiedLinksOf_subset rest)
    · exact List.append_subset.mpr
        ⟨List.subset_append_of_subset_left _ (copiedLinks_subset tree),
          List.subset_append_of_subset_right _ (copiedLinksOf_subset rest)⟩

end

mutual

/-- A node that is no comment is copied if comments have no children. -/
theorem mem_copiedLinks {id : NodeId} {data : NodeData} (hdata : data.isComment = false) :
    (tree : Tree) → tree.Each NodeData.CommentEmpty → (id, data) ∈ tree.nodes →
    some id ∈ tree.copiedLinks
  | .node root payload children, hc, hmem => by
    rw [nodes, List.mem_cons] at hmem
    rw [copiedLinks, List.mem_cons]
    rcases hmem with he | hmem
    · exact Or.inl (congrArg some (Prod.mk.inj he).1)
    · exact Or.inr (mem_copiedLinksOf hdata children hc.2 hmem)
  | .absent _, _, hmem => by
    rw [nodes] at hmem
    cases hmem

theorem mem_copiedLinksOf {id : NodeId} {data : NodeData} (hdata : data.isComment = false) :
    (trees : List Tree) → Tree.EachOf NodeData.CommentEmpty trees →
    (id, data) ∈ Tree.nodesOf trees → some id ∈ copiedLinksOf trees
  | [], _, hmem => by
    rw [nodesOf] at hmem
    cases hmem
  | tree :: rest, hc, hmem => by
    obtain ⟨hfirst, hrest⟩ := hc
    rw [nodesOf, List.mem_append] at hmem
    rw [copiedLinksOf]
    by_cases hcomment : tree.isComment = true
    · have hnot : (id, data) ∉ tree.nodes := by
        intro h
        have hdata' := isComment_of_mem_nodes hfirst hcomment _ h
        rw [hdata] at hdata'
        cases hdata'
      rw [if_pos hcomment]
      exact mem_copiedLinksOf hdata rest hrest (hmem.resolve_left hnot)
    · rw [if_neg hcomment, List.mem_append]
      exact hmem.imp (mem_copiedLinks hdata tree hfirst) (mem_copiedLinksOf hdata rest hrest)

end

end Tree

section

variable {σ η : Type} [TreeBuilder σ η]

/-! ### The steps of copying -/

theorem graft_node (s : σ) (mark : Option Link) (id : NodeId) (data : NodeData)
    (children : List Tree) :
    graft s mark (.node id data children) =
      (((graftRoot s (some data)).1,
          laterMark (if mark = some (some id) then some (graftRoot s (some data)).1 else none)
            (graftChildren (graftRoot s (some data)).2 mark (graftRoot s (some data)).1
              children).1),
        (graftChildren (graftRoot s (some data)).2 mark (graftRoot s (some data)).1
          children).2) := by
  rw [graft]

/-- A comment is passed over. -/
theorem graftChildren_comment {tree : Tree} (h : tree.isComment = true) (s : σ)
    (mark : Option Link) (parent : η) (rest : List Tree) :
    graftChildren s mark parent (tree :: rest) = graftChildren s mark parent rest := by
  rw [graftChildren, if_pos h]

theorem graftChildren_cons {tree : Tree} (h : ¬tree.isComment = true) (s : σ)
    (mark : Option Link) (parent : η) (rest : List Tree) :
    graftChildren s mark parent (tree :: rest) =
      let made := graft s mark tree
      let behind := graftChildren (TreeBuilder.appendChild made.2 parent made.1.1) mark parent rest
      (laterMark made.1.2 behind.1, behind.2) := by
  rw [graftChildren, if_neg h]

theorem isSome_laterMark (first second : Option η) :
    (laterMark first second).isSome = (first.isSome || second.isSome) := by
  cases first <;> cases second <;> rfl

/-! ### The copy that is reported -/

mutual

/-- A copy is reported exactly if the marked node is copied. -/
theorem isSome_graft (mark : Option Link) : (tree : Tree) → (s : σ) →
    ((graft s mark tree).1.2.isSome = true ↔ ∃ link ∈ tree.copiedLinks, mark = some link)
  | .node id data children, s => by
    rw [graft_node, Tree.copiedLinks]
    dsimp only
    rw [isSome_laterMark, Bool.or_eq_true, isSome_graftChildren mark _ children]
    simp only [List.mem_cons, or_and_right, exists_or, exists_eq_left]
    refine or_congr_left ?_
    by_cases hhere : mark = some (some id)
    · rw [if_pos hhere]
      exact iff_of_true rfl hhere
    · rw [if_neg hhere]
      exact iff_of_false Bool.false_ne_true hhere
  | .absent link, s => by
    rw [graft, Tree.copiedLinks]
    dsimp only
    simp only [List.mem_singleton, exists_eq_left]
    by_cases hhere : mark = some link
    · rw [if_pos hhere]
      exact iff_of_true rfl hhere
    · rw [if_neg hhere]
      exact iff_of_false Bool.false_ne_true hhere

theorem isSome_graftChildren (mark : Option Link) (parent : η) : (trees : List Tree) → (s : σ) →
    ((graftChildren s mark parent trees).1.isSome = true ↔
      ∃ link ∈ Tree.copiedLinksOf trees, mark = some link)
  | [], _ => iff_of_false Bool.false_ne_true (by simp [Tree.copiedLinksOf])
  | tree :: rest, s => by
    rw [Tree.copiedLinksOf]
    by_cases hcomment : tree.isComment = true
    · rw [graftChildren_comment hcomment, if_pos hcomment]
      exact isSome_graftChildren mark parent rest s
    · rw [graftChildren_cons hcomment, if_neg hcomment]
      dsimp only
      rw [isSome_laterMark, Bool.or_eq_true, isSome_graft mark tree s,
        isSome_graftChildren mark parent rest]
      simp only [List.mem_append, or_and_right, exists_or]

end

/-- Without a mark none is reported. -/
theorem graft_none (tree : Tree) (s : σ) : (graft s none tree).1.2 = none := by
  rw [← Option.not_isSome_iff_eq_none, isSome_graft none tree s]
  rintro ⟨link, -, he⟩
  cases he

/-- A marked node that is no comment is copied, as comments have no children. -/
theorem graft_isSome {id : NodeId} {data : NodeData} (hdata : data.isComment = false)
    (tree : Tree) (hc : tree.Each NodeData.CommentEmpty) (hmem : (id, data) ∈ tree.nodes) (s : σ) :
    (graft s (some (some id)) tree).1.2.isSome = true :=
  (isSome_graft _ tree s).mpr ⟨some id, Tree.mem_copiedLinks hdata tree hc hmem, rfl⟩

end

/-! ### Outlines of copies -/

namespace NodeData

/-- The payload of a copy. Names lose their name spaces; documents, and comments at a root, become
containers. -/
def copied : NodeData → NodeData
  | .element name attrs =>
    .element (.html name.localName)
      (Attribute.settled (attrs.map fun a => ⟨.html a.name.localName, a.value⟩))
  | .text value => .text value
  | .document => .document
  | .comment _ => .document

end NodeData

namespace Tree

mutual

/-- The outline of the copy of a tree, in which the marked node is the hole. -/
def copied (mark : Option Link) : Tree → Outline
  | .node id data children =>
    .node data.copied (decide (mark = some (some id))) (copiedAll mark children)
  | .absent link => .node .document (decide (mark = some link)) []

/-- The outlines of the copies of trees, without the comments. -/
def copiedAll (mark : Option Link) : List Tree → List Outline
  | [] => []
  | tree :: rest =>
    if tree.isComment then copiedAll mark rest else copied mark tree :: copiedAll mark rest

end

end Tree

namespace Dom

/-- The links of a tree that stands in a store are those of its nodes. -/
theorem WellFormed.links_tree {dom : Dom} (hw : dom.WellFormed) (id : NodeId)
    (hid : id < dom.size) :
    (dom.tree (some id)).links = (dom.tree (some id)).nodes.map fun node => some node.1 := by
  induction id using hw.induction_children with
  | step id ih =>
    have hkids : ∀ kids ⊆ dom.children (some id),
        Tree.linksOf (kids.map fun child => dom.tree (some child)) =
          (Tree.nodesOf (kids.map fun child => dom.tree (some child))).map
            fun node => some node.1 := by
      intro kids hsub
      induction kids with
      | nil => rw [List.map_nil, Tree.linksOf, Tree.nodesOf, List.map_nil]
      | cons kid rest ih' =>
        obtain ⟨hkid, hrest⟩ := List.cons_subset.mp hsub
        rw [List.map_cons, Tree.linksOf, Tree.nodesOf, List.map_append, ih' hrest,
          ih kid hkid (hw.lt_size_of_mem_children hkid)]
    rw [hw.tree_eq hid, Tree.links, Tree.nodes, List.map_cons, childTrees,
      hkids _ (List.Subset.refl _)]

theorem WellFormed.nodup_links {dom : Dom} (hw : dom.WellFormed) (link : Link) :
    (dom.tree link).links.Nodup := by
  have hone : ∀ link, (Tree.absent link).links.Nodup := fun link => List.nodup_singleton link
  cases link with
  | none => exact hone none
  | some id =>
    by_cases hid : id < dom.size
    · rw [hw.links_tree id hid, ← Function.comp_def, ← List.map_map]
      exact (hw.nodup_nodes id hid).map fun _ _ he => Option.some.inj he
    · rw [tree_of_le (Nat.le_of_not_lt hid)]
      exact hone (some id)

variable {s t : Dom} {node : NodeId} {name : QualName} {attrs : List Attribute}

/-- One more attribute is set on a new element. -/
theorem Makes.setAttribute_settled
    (h : Makes s t ⟨node, none⟩ (.node (.element name (Attribute.settled attrs)) false []))
    (key value : String) :
    Makes s (TreeBuilder.setAttribute t node key value) ⟨node, none⟩
      (.node (.element name (Attribute.settled (attrs ++ [⟨.html key, value⟩]))) false []) := by
  rw [Attribute.settled_concat]
  exact h.setAttribute (.html key) value

/-- The attributes of a copy are set on a new element. -/
theorem Makes.buildAttributes (more : List Attribute)
    (h : Makes s t ⟨node, none⟩ (.node (.element name (Attribute.settled attrs)) false [])) :
    Makes s (buildAttributes t node more) ⟨node, none⟩
      (.node (.element name (Attribute.settled
        (attrs ++ more.map fun a => ⟨.html a.name.localName, a.value⟩))) false []) := by
  induction more generalizing t attrs with
  | nil =>
    rw [List.map_nil, List.append_nil]
    exact h
  | cons a rest ih =>
    have hnext := ih (h.setAttribute_settled a.name.localName a.value)
    rw [List.append_assoc, List.singleton_append] at hnext
    exact hnext

/-- The copy of a node is a new node. -/
theorem graftRoot_makes (hs : s.WellFormed) (data : NodeData) :
    Makes s (graftRoot s (some data)).2 ⟨(graftRoot s (some data)).1, none⟩
      (.node data.copied false []) := by
  cases data with
  | element name attrs =>
    have hnew : Makes s (s.create (.element (.html name.localName) [])).2 ⟨s.size, none⟩
        (.node (.element (.html name.localName) (Attribute.settled [])) false []) :=
      makes_create hs _
    exact hnew.buildAttributes attrs
  | text text => exact makes_create hs (.text text)
  | document => exact makes_create hs .document
  | comment text => exact makes_create hs .document

mutual

/-- The copy of a tree has its outline, and the copy of the marked node is its hole. -/
theorem graft_makes (mark : Option Link) : (tree : Tree) → tree.links.Nodup → {s : Dom} →
    s.WellFormed →
    Makes s (graft s mark tree).2 ⟨(graft s mark tree).1.1, (graft s mark tree).1.2⟩
      (tree.copied mark)
  | .node id data children, hn, s, hs => by
    rw [Tree.links, List.nodup_cons] at hn
    have hroot := graftRoot_makes hs data
    have hfills := graftChildren_fills mark _ children hn.2 hroot.grows.after hroot.root_new.2
    rw [graft_node, Tree.copied]
    dsimp only
    by_cases hhere : mark = some (some id)
    · have hbelow : (graftChildren (graftRoot s (some data)).2 mark (graftRoot s (some data)).1
          children).1 = none := by
        rw [← Option.not_isSome_iff_eq_none, isSome_graftChildren]
        rintro ⟨link, hlink, he⟩
        obtain rfl := Option.some.inj (hhere.symm.trans he)
        exact hn.1 (Tree.copiedLinksOf_subset children hlink)
      rw [hbelow] at hfills ⊢
      rw [if_pos hhere, decide_eq_true hhere]
      exact hroot.of_fills_here hfills
    · rw [if_neg hhere, decide_eq_false hhere, laterMark, Option.or_none]
      exact hroot.of_fills hfills
  | .absent link, _, s, hs => by
    have hmade := makes_create hs .document
    rw [graft, Tree.copied]
    dsimp only
    by_cases hhere : mark = some link
    · rw [if_pos hhere, decide_eq_true hhere]
      exact hmade.of_fills_here (.nil _ hmade.grows.after)
    · rw [if_neg hhere, decide_eq_false hhere]
      exact hmade

/-- The copies of trees fill a node. No node is in two of the trees, so at most one of them reports
a copy of the marked node. -/
theorem graftChildren_fills (mark : Option Link) (parent : NodeId) : (trees : List Tree) →
    (Tree.linksOf trees).Nodup → {s : Dom} → s.WellFormed → parent < s.size →
    Fills parent s (graftChildren s mark parent trees).2 (graftChildren s mark parent trees).1
      (Tree.copiedAll mark trees)
  | [], _, s, hs, _ => .nil parent hs
  | tree :: rest, hn, s, hs, hp => by
    rw [Tree.linksOf, List.nodup_append] at hn
    by_cases hcomment : tree.isComment = true
    · rw [graftChildren_comment hcomment, Tree.copiedAll, if_pos hcomment]
      exact graftChildren_fills mark parent rest hn.2.1 hs hp
    · have hhang := (graft_makes mark tree hn.1 hs).hang hp
      have hfills := graftChildren_fills mark parent rest hn.2.1 hhang.grows.after
        (Nat.lt_of_lt_of_le hp hhang.grows.size_le)
      rw [graftChildren_cons hcomment, Tree.copiedAll, if_neg hcomment]
      dsimp only
      have hone : (graft s mark tree).1.2 = none ∨
          (graftChildren ((graft s mark tree).2.append (some parent)
            (some (graft s mark tree).1.1)) mark parent rest).1 = none := by
        by_contra hne
        rw [not_or, ← ne_eq, ← ne_eq, ← Option.isSome_iff_ne_none, ← Option.isSome_iff_ne_none,
          isSome_graft, isSome_graftChildren] at hne
        obtain ⟨⟨link, hlink, he⟩, other, hother, he'⟩ := hne
        exact hn.2.2 link (Tree.copiedLinks_subset tree hlink) other
          (Tree.copiedLinksOf_subset rest hother) (Option.some.inj (he.symm.trans he'))
      exact hhang.append hfills hone

end

end Dom

end RichDoc
