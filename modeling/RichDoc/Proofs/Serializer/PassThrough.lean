import RichDoc.Proofs.Build.Copies
import RichDoc.Proofs.Serializer.Report
import RichDoc.Proofs.Template.Wrapping

/-!
# Trees that take content

A tree that exists can be given as a description, with one of its elements as the hole. Every
element of the tree is accepted, but the copy of the tree has no comments and nothing of what is
below them. So the hole is there for the content exactly if its element stays.
-/

namespace RichDoc

namespace Subtree

/-- A node is an element at or below the root. -/
def HasElement (sub : Subtree) (hole : Link) : Prop :=
  ∃ root id name attrs, sub.root = some root ∧ hole = some id ∧ sub.dom.Under id root ∧
    sub.dom.data? (some id) = some (.element name attrs)

/-- A node stays when the comments below the root are taken out, each with all that is below it. -/
def Keeps (sub : Subtree) (hole : Link) : Prop :=
  ∃ root id, sub.root = some root ∧ hole = some id ∧ sub.dom.Stays root id

variable {sub : Subtree} {hole : Link}

/-- A tree with an element has a root in its store. -/
theorem HasElement.exists_root (hw : sub.dom.WellFormed) (h : sub.HasElement hole) :
    ∃ root < sub.dom.size, sub.root = some root := by
  obtain ⟨root, id, name, attrs, hroot, -, hunder, hdata⟩ := h
  refine ⟨root, ?_, hroot⟩
  rcases Relation.ReflTransGen.cases_tail hunder with he | ⟨child, -, hparent⟩
  · rw [he]
    exact (hw.tree_of_data? hdata).1
  · exact hw.parents child root hparent

/-- The check of a hole accepts the elements of the tree. -/
theorem hasElement_iff (hw : sub.dom.WellFormed) :
    isElementOf sub hole = true ↔ sub.HasElement hole := by
  rw [isElementOf_iff hw]
  constructor
  · rintro ⟨id, data, rfl, hnode, hname⟩
    obtain ⟨root, hroot⟩ : ∃ root, sub.root = some root := by
      cases hroot : sub.root with
      | none =>
        rw [tree, hroot] at hnode
        cases hnode
      | some root => exact ⟨root, rfl⟩
    have hlt : root < sub.dom.size := by
      by_contra hge
      rw [tree, hroot, Dom.tree_of_le (Nat.le_of_not_lt hge)] at hnode
      cases hnode
    rw [tree, hroot, hw.mem_nodes_iff hlt] at hnode
    cases data with
    | element name attrs => exact ⟨root, id, name, attrs, hroot, rfl, hnode⟩
    | document | text _ | comment _ => cases hname
  · intro h
    obtain ⟨_, hlt, hroot⟩ := h.exists_root hw
    obtain ⟨root, id, name, attrs, hroot', rfl, hnode⟩ := h
    obtain rfl := Option.some.inj (hroot.symm.trans hroot')
    refine ⟨id, .element name attrs, rfl, ?_, rfl⟩
    rw [tree, hroot]
    exact (hw.mem_nodes_iff hlt).mpr hnode

end Subtree

section

variable {σ η : Type} [TreeBuilder σ η] {sub : Subtree} {hole : Link} {blocked : List Suspicious}

/-- A tree is rendered by copying it, if its hole is accepted. -/
theorem renderSpec_treeWithHole {s t : σ} {rendered : Rendered η} :
    renderSpec blocked (.treeWithHole sub (some hole)) s = (.ok rendered, t) ↔
      isElementOf sub hole = true ∧
        graft s (some hole) sub.tree = ((rendered.root, rendered.hole), t) := by
  rw [renderSpec]
  split
  case isTrue haccepted =>
    rw [renderTree_apply]
    constructor
    · intro h
      cases h
      exact ⟨haccepted, rfl⟩
    · rintro ⟨-, h⟩
      rw [h]
  case isFalse hrefused => exact ⟨nofun, fun h => absurd h.1 hrefused⟩

/-- The elements of a tree are accepted as its hole, and no other nodes. -/
theorem exists_treeWithHole_iff (hw : sub.dom.WellFormed) (s : σ) :
    (∃ (rendered : Rendered η) (t : σ),
        renderSpec blocked (.treeWithHole sub (some hole)) s = (.ok rendered, t)) ↔
      sub.HasElement hole := by
  simp only [renderSpec_treeWithHole, ← Subtree.hasElement_iff hw]
  exact ⟨fun ⟨_, _, haccepted, _⟩ => haccepted, fun haccepted => ⟨⟨_, _⟩, _, haccepted, rfl⟩⟩

/-- The hole is there for the content exactly if its element stays. -/
theorem isSome_hole_iff (hw : sub.dom.WellFormed) {s t : σ} {rendered : Rendered η}
    (h : renderSpec blocked (.treeWithHole sub (some hole)) s = (.ok rendered, t)) :
    rendered.hole.isSome = true ↔ sub.Keeps hole := by
  obtain ⟨haccepted, hgraft⟩ := renderSpec_treeWithHole.mp h
  obtain ⟨root, hlt, hroot⟩ := ((Subtree.hasElement_iff hw).mp haccepted).exists_root hw
  have hhole : rendered.hole = (graft s (some hole) sub.tree).1.2 := by
    rw [hgraft]
  rw [hhole, isSome_graft, Subtree.tree, hroot]
  simp only [hw.mem_copiedLinks_iff root hlt, Subtree.Keeps, hroot]
  constructor
  · rintro ⟨link, ⟨id, rfl, hstays⟩, he⟩
    exact ⟨root, id, rfl, Option.some.inj he, hstays⟩
  · rintro ⟨_, id, hr, rfl, hstays⟩
    cases hr
    exact ⟨some id, ⟨id, rfl, hstays⟩, rfl⟩

/-! ### Nodes that are given as trees -/

/-- Building a node renders its description, and then builds all of its content into the hole. -/
def Node.TakesContent (table : TemplateTable) (policy : MarkPolicy) (node : Node) (spec : Spec)
    (state : Guarded σ) : Prop :=
  ∃ (root copy : η) (built : Guarded σ),
    spec.renderGuarded [node.attrs] state = (.ok ⟨root, some copy⟩, built) ∧
      renderNode table policy node state =
        ((fun _ => root) <$> serializeFragment table policy node.content (some copy)) built

/-- A node whose description leaves a hole is built by building its content into the hole. -/
theorem renderNode_of_hole {table : TemplateTable} {policy : MarkPolicy} {node : Node}
    {template : NodeTemplate} {state built : Guarded σ} {root copy : η}
    (htemplate : table.node? node.type.name = some template) (hleaf : node.type.isLeaf = false)
    (hmade : (template node).renderGuarded [node.attrs] state = (.ok ⟨root, some copy⟩, built)) :
    renderNode table policy node state =
      ((fun _ => root) <$> serializeFragment table policy node.content (some copy)) built := by
  obtain ⟨type, attrs, content, marks, text⟩ := node
  rw [renderNode, htemplate]
  dsimp only at hleaf hmade ⊢
  rw [Building.bind_apply_ok hmade]
  simp [hleaf, serializeFragment]

/-- A node that is given as a tree takes its content exactly if the element with the hole stays. -/
theorem takesContent_iff (hw : sub.dom.WellFormed) (haccepted : sub.HasElement hole)
    {table : TemplateTable} {policy : MarkPolicy} {node : Node} {template : NodeTemplate}
    (htemplate : table.node? node.type.name = some template) (hleaf : node.type.isLeaf = false)
    (hspec : template node = .treeWithHole sub (some hole)) (state : Guarded σ) :
    node.TakesContent (η := η) table policy (template node) state ↔ sub.Keeps hole := by
  obtain ⟨⟨root, taken⟩, t, hrun⟩ : ∃ (rendered : Rendered η) (t : σ),
      renderSpec (state.guard.collect [node.attrs]).1 (.treeWithHole sub (some hole)) state.tree =
        (.ok rendered, t) := (exists_treeWithHole_iff hw state.tree).mpr haccepted
  have hmade : (template node).renderGuarded [node.attrs] state =
      (.ok ⟨root, taken⟩, ⟨(state.guard.collect [node.attrs]).2, t⟩) := by
    rw [renderGuarded_apply, hspec, hrun]
  rw [← isSome_hole_iff hw hrun]
  constructor
  · rintro ⟨root', copy, built, hmade', -⟩
    rw [hmade] at hmade'
    cases hmade'
    rfl
  · intro hsome
    obtain ⟨copy, rfl⟩ := Option.isSome_iff_exists.mp hsome
    exact ⟨root, copy, _, hmade, renderNode_of_hole htemplate hleaf hmade⟩

end

/-- A tree over a well-formed store is accepted with each of its elements as the hole and with
nothing else. The rendered tree takes content exactly if the element stays when the comments below
the root are taken out, and in a store the hole is then the copy of that element. A node that is
given as such a tree takes its content exactly if the element stays. -/
theorem passThrough_hole {sub : Subtree} (hw : sub.dom.WellFormed) (hole : Link) :
    (∀ {σ η : Type} [TreeBuilder σ η] (blocked : List Suspicious) (s : σ),
        ((∃ (rendered : Rendered η) (t : σ),
            renderSpec blocked (.treeWithHole sub (some hole)) s = (.ok rendered, t)) ↔
          sub.HasElement hole) ∧
        ∀ (rendered : Rendered η) (t : σ),
          renderSpec blocked (.treeWithHole sub (some hole)) s = (.ok rendered, t) →
          (rendered.hole.isSome = true ↔ sub.Keeps hole)) ∧
      (∀ (blocked : List Suspicious) (s t : Dom) (rendered : Rendered NodeId), s.WellFormed →
        renderSpec blocked (.treeWithHole sub (some hole)) s = (.ok rendered, t) →
        Dom.Makes s t rendered (sub.tree.copied (some hole))) ∧
      ∀ {σ η : Type} [TreeBuilder σ η] (table : TemplateTable) (policy : MarkPolicy) (node : Node)
        (template : NodeTemplate) (state : Guarded σ),
        table.node? node.type.name = some template → node.type.isLeaf = false →
        template node = .treeWithHole sub (some hole) → sub.HasElement hole →
        (node.TakesContent (η := η) table policy (template node) state ↔ sub.Keeps hole) := by
  refine ⟨fun blocked s => ⟨exists_treeWithHole_iff hw s, fun _ _ h => isSome_hole_iff hw h⟩, ?_,
    fun _ _ _ _ state htemplate hleaf hspec haccepted =>
      takesContent_iff hw haccepted htemplate hleaf hspec state⟩
  intro blocked s t rendered hs h
  obtain ⟨-, hgraft⟩ := renderSpec_treeWithHole.mp h
  have hmakes := Dom.graft_makes (some hole) sub.tree (hw.nodup_links sub.root) hs
  rw [hgraft] at hmakes
  exact hmakes

/-- An element with a comment, in which there is another element, and with an element behind it. -/
def commentedSubtree : Subtree := ⟨Dom.commentedDom, some 1⟩

/-- A table in which a type is given as a tree with a comment. -/
def commentedTable (hole : NodeId) : TemplateTable where
  nodes := [("box", fun _ => .treeWithHole commentedSubtree (some (some hole))),
    (textTypeName, textTemplate)]
  marks := []

/-- A node of the type that is given as a tree with a comment. -/
def commentedBox (content : Fragment) : Node :=
  ⟨⟨"box", some "text*", none, false, []⟩, ⟨0, []⟩, content, [], none⟩

/-- The element behind the comment is the hole of the copy, without the comment, and the content of
a node given as this tree goes there. -/
theorem passThrough_hole_sample :
    commentedSubtree.dom.WellFormed ∧
      (∃ t, (Spec.treeWithHole commentedSubtree (some (some 4))).render Dom.empty =
          (.ok ⟨1, some 2⟩, t) ∧
        Dom.Makes Dom.empty t ⟨1, some 2⟩
          (.node (.element (.html "g") [⟨.html "id", "y"⟩]) false
            [.node (.element (.html "i") []) true []])) ∧
      (commentedBox [sampleText "a" []]).TakesContent (commentedTable 4) .strict
        (.treeWithHole commentedSubtree (some (some 4))) ⟨.empty, Dom.empty⟩ := by
  have hw : commentedSubtree.dom.WellFormed := Dom.wellFormed_commentedDom
  obtain ⟨hrendered, hmakes, htakes⟩ := passThrough_hole hw (some 4)
  have hrun : (Spec.treeWithHole commentedSubtree (some (some 4))).render Dom.empty =
      (.ok ⟨1, some 2⟩, ((Spec.treeWithHole commentedSubtree (some (some 4))).render Dom.empty :
        Except Error (Rendered NodeId) × Dom).2) := Prod.ext rfl rfl
  obtain ⟨haccepts, hkeeps⟩ := hrendered [] Dom.empty
  exact ⟨hw, ⟨_, hrun, hmakes [] _ _ _ Dom.wellFormed_empty hrun⟩,
    (htakes (commentedTable 4) .strict (commentedBox _) _ _ rfl rfl rfl
      (haccepts.mp ⟨_, _, hrun⟩)).mpr ((hkeeps _ _ hrun).mp rfl)⟩

/-- An element in a comment is accepted as the hole of a tree, and then there is no hole. Whatever
the content of a node that is given as such a tree is, it is left out. -/
theorem hole_lost_in_comment :
    commentedSubtree.dom.WellFormed ∧ commentedSubtree.HasElement (some 3) ∧
      (∃ t, (Spec.treeWithHole commentedSubtree (some (some 3))).render Dom.empty =
        (.ok ⟨1, none⟩, t)) ∧
      ∃ built : Guarded Dom, ∀ content, (commentedBox content).type.isLeaf = false ∧
        renderNode (commentedTable 3) .strict (commentedBox content) ⟨.empty, Dom.empty⟩ =
          (.ok 1, built) := by
  refine ⟨Dom.wellFormed_commentedDom, ?_, ⟨_, Prod.ext rfl rfl⟩, _, fun content => ⟨rfl, rfl⟩⟩
  exact ⟨1, 3, .html "b", [], rfl, rfl, .head (rfl : Dom.commentedDom.parent (some 3) = some 2)
    (.single rfl), rfl⟩

end RichDoc
