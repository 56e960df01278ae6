import RichDoc.Proofs.Serializer.Grouping
import RichDoc.Proofs.Serializer.Total

/-!
# What a serialized document shows

When all templates are wrappers and leaves, no mark is lost, so serializing is grouping. A group is
a wrapper filled with smaller groups, and a node is a wrapper filled with groups or a leaf. So what
is built says the texts of the document in their order, and what holds of each wrapper and of each
leaf holds throughout.
-/

namespace RichDoc

/-! ### Trees that say a text -/

namespace Dom

variable {p : NodeData → List Outline → Prop} {s t u : Dom} {node root hole : NodeId}
  {outline : Outline} {text other : String}

/-- Work makes a tree without a hole. Something holds of each of its nodes, and it says a text. -/
def MakesText (p : NodeData → List Outline → Prop) (s t : Dom) (root : NodeId) (text : String) :
    Prop :=
  ∃ outline, Makes s t ⟨root, none⟩ outline ∧ outline.Each p ∧ outline.text = text

/-- Work fills a node with trees without a hole. Something holds of each of their nodes, and
together they say a text. -/
def FillsText (p : NodeData → List Outline → Prop) (node : NodeId) (s t : Dom) (text : String) :
    Prop :=
  ∃ outlines, Fills node s t none outlines ∧ Outline.EachOf p outlines ∧
    Outline.texts outlines = text

theorem MakesText.grows (h : MakesText p s t root text) : Grows (fun _ => False) s t := by
  obtain ⟨_, hmakes, -, -⟩ := h
  exact hmakes.grows

theorem FillsText.grows (h : FillsText p node s t text) : Grows (fun id => id = node) s t := by
  obtain ⟨_, hfills, -, -⟩ := h
  exact hfills.grows

theorem FillsText.nil (p : NodeData → List Outline → Prop) (node : NodeId) (hs : s.WellFormed) :
    FillsText p node s s "" :=
  ⟨[], .nil node hs, trivial, rfl⟩

/-- What comes behind is said behind. -/
theorem FillsText.append (h : FillsText p node s t text) (h' : FillsText p node t u other) :
    FillsText p node s u (text ++ other) := by
  obtain ⟨outlines, hfills, heach, rfl⟩ := h
  obtain ⟨others, hfills', heach', rfl⟩ := h'
  refine ⟨outlines ++ others, hfills.append hfills' (Or.inl rfl), ?_, Outline.texts_append ..⟩
  exact Outline.eachOf_append.mpr ⟨heach, heach'⟩

theorem MakesText.hang (h : MakesText p s t root text) (hnode : node < s.size) :
    FillsText p node s (t.append (some node) (some root)) text := by
  obtain ⟨outline, hmakes, heach, rfl⟩ := h
  exact ⟨[outline], hmakes.hang hnode, ⟨heach, trivial⟩, String.append_empty⟩

/-- A filled frame says what its content says. -/
theorem Makes.fillText (h : Makes s t ⟨root, some hole⟩ outline) (hf : outline.Frame p)
    (hc : FillsText p hole t u text) : MakesText p s u root text := by
  obtain ⟨content, hfills, heach, rfl⟩ := hc
  exact ⟨outline.fill content, h.fill hfills, hf.each_fill heach, hf.text_fill content⟩

/-- So does one that is hung on a node before it is filled. -/
theorem Makes.hangText (h : Makes s t ⟨root, some hole⟩ outline) (hf : outline.Frame p)
    (hnode : node < s.size)
    (hc : FillsText p hole (t.append (some node) (some root)) u text) :
    FillsText p node s u text := by
  obtain ⟨content, hfills, heach, rfl⟩ := hc
  refine ⟨[outline.fill content], (h.hang hnode).fill hfills hnode, ?_, ?_⟩
  · exact ⟨hf.each_fill heach, trivial⟩
  · rw [Outline.texts, Outline.texts, hf.text_fill, String.append_empty]

/-- So does one that is built around a tree. -/
theorem MakesText.wrap {inner : NodeId} (h : MakesText p s t inner text)
    (h' : Makes t u ⟨root, some hole⟩ outline) (hf : outline.Frame p) :
    MakesText p s (u.append (some hole) (some inner)) root text := by
  obtain ⟨content, hmakes, heach, rfl⟩ := h
  refine ⟨outline.fill [content], hmakes.wrap h', hf.each_fill ⟨heach, trivial⟩, ?_⟩
  rw [hf.text_fill, Outline.texts, Outline.texts, String.append_empty]

end Dom

/-! ### Runs without a loss -/

section

variable {σ η : Type} [TreeBuilder σ η] {table : TemplateTable}
  {p : NodeData → List Outline → Prop} {policy : MarkPolicy}

/-- A mark that is served is not lost. -/
theorem MarksReported.losses_eq_nil {node : Node} {marks : List Mark} {top : η}
    {state after : Guarded σ} {fates : List (Fate σ η)}
    (h : MarksReported table policy node marks top state fates after)
    (hserved : ∀ mark ∈ marks, table.ServesMark p mark) : fates.filterMap Fate.loss? = [] := by
  induction h with
  | nil => rfl
  | passed _ _ ih => exact ih (List.forall_mem_cons.mp hserved).2
  | opened _ _ _ ih => exact ih (List.forall_mem_cons.mp hserved).2
  | @dropped mark rest top state error failed fates after _ failed_eq _ _ _ =>
    obtain ⟨root, hole, built, hbuilt⟩ :=
      (List.forall_mem_cons.mp hserved).1.exists_renderMark (η := η) node state
    rw [hbuilt] at failed_eq
    cases failed_eq

/-- Siblings whose marks are served have no losses. -/
theorem NodesReported.losses_eq_nil {target : η} {chain : List (Wrapper σ η)} {nodes : List Node}
    {state after : Guarded σ} {reports : List (Report σ η)}
    (h : NodesReported table policy target chain nodes state reports after)
    (hserved : ∀ node ∈ nodes, ∀ mark ∈ node.marks, table.ServesMark p mark) :
    ∀ report ∈ reports, report.losses = [] := by
  induction h with
  | nil => exact List.forall_mem_nil _
  | @cons chain node rest state shared left opened inside inner content built reports after
      agree marks _ _ ih =>
    obtain ⟨hnode, hrest⟩ := List.forall_mem_cons.mp hserved
    have hshared := sharing_losses table chain node.marks
    rw [agree] at hshared
    have hleft : ∀ mark ∈ left, table.ServesMark p mark := by
      intro mark hmark
      obtain ⟨closed, hagreeing, -⟩ := agreeing_openList table node.marks target chain
      have hmem : mark ∈ (agreeing table (openList target chain) node.marks).2.2 := by
        rw [hagreeing, agree]
        exact hmark
      exact hnode mark (mem_of_mem_agreeing table hmem)
    refine List.forall_mem_cons.mpr ⟨?_, ih hrest⟩
    rw [Report.losses, List.filterMap_append, hshared, marks.losses_eq_nil hleft, List.nil_append]

/-- Siblings whose marks are served are built group by group. -/
theorem group_of_serializeNodes {nodes : List Node} {hole : η} {state after : Guarded σ}
    (hserved : ∀ node ∈ nodes, ∀ mark ∈ node.marks, table.ServesMark p mark)
    (h : serializeNodes table policy (openedIn (σ := σ) hole []) nodes state = (.ok (), after)) :
    group table policy (nodes.map fun node => (node, registered table node.marks)) hole state =
      (.ok (), after) := by
  rw [serializeNodes_eq_report, Building.map_eq_ok] at h
  obtain ⟨reports, hrun, -⟩ := h
  have hreported := nodesReported hrun
  have hgroup := hreported.resume_eq (hreported.losses_eq_nil hserved)
  rwa [resume] at hgroup

end

/-! ### Groups -/

namespace Node

theorem textContents_append (nodes others : List Node) :
    textContents (nodes ++ others) = textContents nodes ++ textContents others := by
  induction nodes with
  | nil => rw [List.nil_append, textContents, String.empty_append]
  | cons node rest ih => rw [List.cons_append, textContents, textContents, ih, String.append_assoc]

/-- A node without text says what its content says. -/
theorem textContent_of_text {node : Node} (h : node.text = none) :
    node.textContent = textContents node.content := by
  obtain ⟨type, attrs, content, marks, text⟩ := node
  obtain rfl : text = none := h
  rw [textContent]

end Node

section

open Dom

variable {table : TemplateTable} {p : NodeData → List Outline → Prop} {policy : MarkPolicy}

/-- The wrapper of a mark that is served is a frame. -/
theorem renderMark_makes {mark : Mark} (h : table.ServesMark p mark) {node : Node}
    {state after : Guarded Dom} {wrapper : Option (Rendered NodeId)}
    (hw : state.tree.WellFormed)
    (hrun : renderMark table mark node state = (.ok wrapper, after)) :
    ∃ root hole outline, wrapper = some ⟨root, some hole⟩ ∧
      Makes state.tree after.tree ⟨root, some hole⟩ outline ∧ outline.Frame p := by
  obtain ⟨template, htemplate, hwraps⟩ := h
  rw [renderMark, htemplate] at hrun
  obtain ⟨rendered, t, hrendered, hpure⟩ := Building.bind_eq_ok.mp hrun
  cases hpure
  obtain ⟨root, hole, rfl, hmakes⟩ := (hwraps node.isInline).makes hw hrendered
  exact ⟨root, hole, _, rfl, hmakes, (hwraps node.isInline).frame⟩

/-- Building a node makes a tree that says its text. -/
def Node.Told (table : TemplateTable) (policy : MarkPolicy) (p : NodeData → List Outline → Prop)
    (node : Node) : Prop :=
  ∀ (state after : Guarded Dom) (inner : NodeId), state.tree.WellFormed →
    renderNode table policy node state = (.ok inner, after) →
    MakesText p state.tree after.tree inner node.textContent

/-- The groups of some nodes fill their parent with the texts of the nodes, in order. -/
theorem group_fills (items : List Pending) (parent : NodeId)
    (hitems : ∀ item ∈ items, item.1.Told table policy p ∧
      ∀ mark ∈ item.2, table.ServesMark p mark)
    {state after : Guarded Dom} (hw : state.tree.WellFormed) (hparent : parent < state.tree.size)
    (h : group table policy items parent state = (.ok (), after)) :
    FillsText p parent state.tree after.tree (Node.textContents (items.map Prod.fst)) := by
  induction items, parent using group.induct generalizing state after with
  | case1 parent =>
    rw [group] at h
    cases h
    exact .nil p parent hw
  | case2 node rest parent ih =>
    obtain ⟨hnode, hrest⟩ := List.forall_mem_cons.mp hitems
    rw [group] at h
    obtain ⟨inner, built, hinner, h⟩ := Building.bind_eq_ok.mp h
    rw [Building.bind_apply_ok (appendTo_apply _ _ _)] at h
    have hfirst := (hnode.1 state built inner hw hinner).hang hparent
    have hothers : FillsText p parent (built.tree.append (some parent) (some inner)) after.tree
        (Node.textContents (rest.map Prod.fst)) := by
      refine ih hrest ?_ ?_ h
      · exact hfirst.grows.after
      · exact Nat.lt_of_lt_of_le hparent hfirst.grows.size_le
    rw [List.map_cons, Node.textContents]
    exact hfirst.append hothers
  | case3 node mark marks rest parent _ ihrun ihbehind =>
    obtain ⟨⟨hnode, hmarks⟩, hrest⟩ := List.forall_mem_cons.mp hitems
    obtain ⟨hmark, hmarks⟩ := List.forall_mem_cons.mp hmarks
    rw [group] at h
    obtain ⟨wrapper, built, hwrapper, h⟩ := Building.bind_eq_ok.mp h
    obtain ⟨root, hole, outline, rfl, hmakes, hframe⟩ := renderMark_makes hmark hw hwrapper
    dsimp only at h
    rw [Building.bind_apply_ok (appendTo_apply _ _ _)] at h
    obtain ⟨⟨⟩, filled, hrun, hbehind⟩ := Building.bind_eq_ok.mp h
    have hhang := hmakes.hang hparent
    have hsplit := runOf_append_behind mark rest
    have hinner : FillsText p hole (built.tree.append (some parent) (some root)) filled.tree
        (Node.textContents
          (((node, marks) :: (runOf mark rest).map withoutFirst).map Prod.fst)) := by
      refine ihrun ⟨root, some hole⟩ ?_ ?_ ?_ hrun
      · refine List.forall_mem_cons.mpr
          ⟨⟨hnode, hmarks⟩, List.forall_mem_map.mpr fun item hitem => ?_⟩
        have hmem : item ∈ rest := hsplit ▸ List.mem_append_left _ hitem
        exact ⟨(hrest item hmem).1, fun m hm => (hrest item hmem).2 m (List.mem_of_mem_tail hm)⟩
      · exact hhang.grows.after
      · exact (hhang.hole_new hole rfl).2
    have hfirst := hmakes.hangText hframe hparent hinner
    have hothers := ihbehind
      (fun item hitem => hrest item (hsplit ▸ List.mem_append_right _ hitem))
      hfirst.grows.after (Nat.lt_of_lt_of_le hparent hfirst.grows.size_le) hbehind
    have hnodes : rest.map Prod.fst =
        ((runOf mark rest).map withoutFirst).map Prod.fst ++ (behind mark rest).map Prod.fst := by
      rw [List.map_map, ← congrArg (List.map Prod.fst) hsplit, List.map_append]
      rfl
    rw [List.map_cons, hnodes, ← List.cons_append, Node.textContents_append]
    exact hfirst.append hothers

/-- Siblings fill their parent with their texts, in order. -/
theorem serializeNodes_fills {nodes : List Node}
    (hmarks : ∀ node ∈ nodes, ∀ mark ∈ node.marks, table.ServesMark p mark)
    (htold : ∀ node ∈ nodes, node.Told table policy p) {parent : NodeId}
    {state after : Guarded Dom} (hw : state.tree.WellFormed) (hparent : parent < state.tree.size)
    (h : serializeNodes table policy (openedIn (σ := Dom) parent []) nodes state =
      (.ok (), after)) :
    FillsText p parent state.tree after.tree (Node.textContents nodes) := by
  have hitems : ∀ item ∈ nodes.map fun node => (node, registered table node.marks),
      item.1.Told table policy p ∧ ∀ mark ∈ item.2, table.ServesMark p mark := by
    refine List.forall_mem_map.mpr fun node hnode => ⟨htold node hnode, fun mark hmark => ?_⟩
    exact hmarks node hnode mark (List.mem_of_mem_filter hmark)
  have hfills := group_fills _ parent hitems hw hparent (group_of_serializeNodes hmarks h)
  rw [List.map_map] at hfills
  rwa [show nodes.map (Prod.fst ∘ fun node => (node, registered table node.marks)) = nodes from
    List.map_id nodes] at hfills

/-- A node that is served is a tree that says its text. -/
theorem Node.Served.told {node : Node} (h : node.Served table p) (policy : MarkPolicy) :
    node.Told table policy p := by
  induction node using Node.induction_content with
  | step node ih =>
    obtain ⟨type, attrs, content, marks, text⟩ := node
    have hcontent := h.content
    intro state after inner hw hrun
    rw [renderNode] at hrun
    cases hnode : table.node? type.name with
    | none =>
      rw [hnode] at hrun
      cases hrun
    | some template =>
      rw [hnode] at hrun
      obtain ⟨rendered, made, hmade, hrun⟩ := Building.bind_eq_ok.mp hrun
      rcases h.wraps_or_tells hnode with ⟨hwraps, hleaf, htext⟩ | ⟨htells, -⟩
      · obtain ⟨root, hole, rfl, hmakes⟩ := hwraps.makes hw hmade
        have hleaf : ¬type.isLeaf = true := Bool.eq_false_iff.mp hleaf
        dsimp only at hrun
        rw [if_neg hleaf] at hrun
        obtain ⟨⟨⟩, filled, hfilled, hpure⟩ := Building.bind_eq_ok.mp hrun
        cases hpure
        have hinner := serializeNodes_fills (fun child hchild => (hcontent child hchild).marks)
          (fun child hchild => ih child hchild (hcontent child hchild)) hmakes.grows.after
          (hmakes.hole_new hole rfl).2 hfilled
        rw [Node.textContent_of_text htext]
        exact hmakes.fillText hwraps.frame hinner
      · obtain ⟨root, rfl, hmakes⟩ := htells.makes hw hmade
        cases hrun
        exact ⟨_, hmakes, htells.each, htells.text_outline⟩

/-- The wrappers of a node's marks say what the node says. -/
theorem wrapMarks_makes {node : Node} {marks : List Mark} {text : String}
    (hserved : ∀ mark ∈ marks, table.ServesMark p mark) {start : Dom}
    {state after : Guarded Dom} {inner root : NodeId}
    (hinner : MakesText p start state.tree inner text)
    (h : wrapMarks table node marks inner state = (.ok root, after)) :
    MakesText p start after.tree root text := by
  induction marks generalizing root after with
  | nil =>
    rw [wrapMarks] at h
    cases h
    exact hinner
  | cons mark rest ih =>
    obtain ⟨hmark, hrest⟩ := List.forall_mem_cons.mp hserved
    rw [wrapMarks] at h
    obtain ⟨wrapped, t, hwrapped, h⟩ := Building.bind_eq_ok.mp h
    have hwrapped := ih hrest hwrapped
    obtain ⟨wrapper, built, hwrapper, h⟩ := Building.bind_eq_ok.mp h
    obtain ⟨outer, hole, outline, rfl, hmakes, hframe⟩ :=
      renderMark_makes hmark hwrapped.grows.after hwrapper
    dsimp only at h
    rw [Building.bind_apply_ok (appendTo_apply _ _ _)] at h
    cases h
    exact hwrapped.wrap hmakes hframe

end

/-! ### Serializers -/

namespace Serializer

open Dom

variable {serializer : Serializer} {p : NodeData → List Outline → Prop} {policy : MarkPolicy}
  {style : Html.Style} {fragment : Fragment} {node : Node} {built : Subtree} {html : String}

/-- What is built in a new store is the result of a successful run. -/
theorem exists_run (serializer : Serializer) (work : Guarding Dom NodeId)
    (h : ((serializer.run work Dom.empty).1.map fun root =>
      (⟨(serializer.run work Dom.empty).2.1, some root⟩ : Subtree)) = .ok built) :
    ∃ root after, work ⟨serializer.guard, Dom.empty⟩ = (.ok root, after) ∧
      built = ⟨after.tree, some root⟩ := by
  unfold run at h
  rcases hrun : work ⟨serializer.guard, Dom.empty⟩ with ⟨error | root, after⟩
  · rw [hrun] at h
    cases h
  · rw [hrun] at h
    exact ⟨root, after, rfl, (Except.ok.inj h).symm⟩

/-- A fragment is built as a container with trees that say its text. -/
theorem fragmentToDom_makes (hserved : ∀ node ∈ fragment, node.Served serializer.templates p)
    (h : serializer.fragmentToDom policy fragment = .ok built) :
    ∃ root outlines, built.root = some root ∧
      Makes Dom.empty built.dom ⟨root, none⟩ (.node .document false outlines) ∧
      Outline.EachOf p outlines ∧ Outline.texts outlines = fragment.textContent := by
  obtain ⟨root, after, hrun, rfl⟩ :=
    exists_run serializer (serializeFragment serializer.templates policy fragment none) h
  rw [serializeFragment_eq] at hrun
  obtain ⟨container, start, hcontainer, hrun⟩ := Building.bind_eq_ok.mp hrun
  obtain ⟨⟨⟩, filled, hnodes, hpure⟩ := Building.bind_eq_ok.mp hrun
  cases hpure
  cases hcontainer
  have hnew := makes_create wellFormed_empty .document
  obtain ⟨outlines, hfills, heach, htexts⟩ :=
    serializeNodes_fills (fun node hnode => (hserved node hnode).marks)
      (fun node hnode => (hserved node hnode).told policy) hnew.grows.after hnew.root_new.2 hnodes
  exact ⟨_, outlines, rfl, hnew.of_fills hfills, heach, htexts⟩

/-- A node is built as a tree that says its text. -/
theorem nodeToDom_makes (hserved : node.Served serializer.templates p)
    (h : serializer.nodeToDom policy node = .ok built) :
    ∃ root, built.root = some root ∧ MakesText p Dom.empty built.dom root node.textContent := by
  obtain ⟨root, after, hrun, rfl⟩ :=
    exists_run serializer (serializeNode serializer.templates policy node) h
  obtain ⟨inner, made, hinner, hwrap⟩ := Building.bind_eq_ok.mp hrun
  have htold := hserved.told policy ⟨serializer.guard, Dom.empty⟩ made inner wellFormed_empty hinner
  exact ⟨root, rfl, wrapMarks_makes hserved.marks htold hwrap⟩

/-- The container of a fragment says the text of the fragment. -/
theorem innerText_of_fragmentToDom
    (hserved : ∀ node ∈ fragment, node.Served serializer.templates p)
    (h : serializer.fragmentToDom policy fragment = .ok built) :
    built.dom.innerText built.root = fragment.textContent := by
  obtain ⟨root, outlines, hroot, hmakes, -, htexts⟩ := fragmentToDom_makes hserved h
  rw [hroot, hmakes.grows.after.innerText_eq hmakes.root_new.2, ← Tree.text_outline none,
    hmakes.outline_eq, Outline.text, htexts]
  exact String.empty_append

/-- The HTML of a fragment is that of trees of which something holds throughout. -/
theorem exists_trees_of_fragmentToHtml
    (hserved : ∀ node ∈ fragment, node.Served serializer.templates p)
    (h : serializer.fragmentToHtml policy style fragment = .ok html) :
    ∃ trees, html = Html.printAll style trees ∧
      Tree.EachOf (fun data children => p data (Tree.outlines none children)) trees := by
  unfold fragmentToHtml at h
  rcases hbuilt : serializer.fragmentToDom policy fragment with error | built
  · rw [hbuilt] at h
    cases h
  · rw [hbuilt] at h
    obtain rfl := Except.ok.inj h
    obtain ⟨root, outlines, hroot, hmakes, heach, -⟩ := fragmentToDom_makes hserved hbuilt
    refine ⟨built.dom.childTrees built.root, rfl, Tree.eachOf_of_outlines _ ?_⟩
    have houtline := hmakes.outline_eq
    rw [hmakes.grows.after.tree_eq hmakes.root_new.2, Tree.outline, Outline.node.injEq] at houtline
    rw [hroot, houtline.2.2]
    exact heach

/-- So is the HTML of a node. -/
theorem exists_trees_of_nodeToHtml (hserved : node.Served serializer.templates p)
    (h : serializer.nodeToHtml policy style node = .ok html) :
    ∃ trees, html = Html.printAll style trees ∧
      Tree.EachOf (fun data children => p data (Tree.outlines none children)) trees := by
  unfold nodeToHtml at h
  rcases hbuilt : serializer.nodeToDom policy node with error | built
  · rw [hbuilt] at h
    cases h
  · rw [hbuilt] at h
    obtain rfl := Except.ok.inj h
    obtain ⟨root, hroot, outline, hmakes, heach, -⟩ := nodeToDom_makes hserved hbuilt
    have houtline := hmakes.outline_eq
    refine ⟨[built.dom.tree built.root], ?_, ?_, trivial⟩
    · rw [Html.printAll, Html.printAll, String.append_empty]
      rfl
    · rw [hroot]
      refine Tree.each_of_outline _ ?_
      rw [houtline]
      exact heach

end Serializer

end RichDoc
