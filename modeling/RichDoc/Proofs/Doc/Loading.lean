import RichDoc.Doc.Load
import RichDoc.Proofs.Running

/-!
# What loading ensures

Content expressions are not enforced, so a loaded document may nest its nodes in any way. But each
node and each mark has a declared type, exactly the nodes of the text type carry text, and neither
they nor the nodes of leaf types have content. The marks of a node are a set, and a new node takes
the next token.
-/

namespace RichDoc

/-- A node and all nodes below it follow the declarations of a schema. -/
inductive Node.Conforms (schema : Schema) : Node → Prop where
  | node {type attrs content marks text} :
      (∃ decl ∈ schema.nodes, decl.type = type) →
      (text.isSome = true ↔ type.name = textTypeName) →
      (type.name = textTypeName ∨ type.isLeaf = true → content = []) →
      (∀ mark ∈ marks, ∃ decl ∈ schema.marks, decl.type = mark.type) →
      (∀ child ∈ content, Node.Conforms schema child) →
      Node.Conforms schema ⟨type, attrs, content, marks, text⟩

/-- A node at or below another one. -/
inductive Node.Inside : Node → Node → Prop where
  | self (node : Node) : Node.Inside node node
  | content {x child node : Node} : child ∈ node.content → Node.Inside x child →
      Node.Inside x node

namespace Node.Conforms

variable {schema : Schema} {node : Node}

theorem exists_decl (h : node.Conforms schema) : ∃ decl ∈ schema.nodes, decl.type = node.type := by
  obtain ⟨hdecl, -, -, -, -⟩ := h
  exact hdecl

/-- Only nodes of the text type carry text. -/
theorem isSome_text_iff (h : node.Conforms schema) :
    node.text.isSome = true ↔ node.typeName = textTypeName := by
  obtain ⟨-, htext, -, -, -⟩ := h
  exact htext

theorem content_eq_nil (h : node.Conforms schema)
    (hleaf : node.typeName = textTypeName ∨ node.isLeaf = true) : node.content = [] := by
  obtain ⟨-, -, hcontent, -, -⟩ := h
  exact hcontent hleaf

/-- Every node inside one that follows the declarations follows them. -/
theorem of_inside {x : Node} (h : node.Conforms schema) (hx : x.Inside node) :
    x.Conforms schema := by
  induction hx with
  | self => exact h
  | content hchild _ ih =>
    obtain ⟨-, -, -, -, hcontent⟩ := h
    exact ih (hcontent _ hchild)

end Node.Conforms

/-! ### Mark sets -/

namespace Mark

/-- Placing a mark puts it among the others unless it is there already, and takes away those of its
type. -/
theorem mem_place_iff {mark other : Mark} {marks : List Mark} {placed : Bool} :
    other ∈ mark.place marks placed ↔
      (placed = false ∧ other = mark) ∨ (other ∈ marks ∧ other.typeName ≠ mark.typeName) := by
  induction marks generalizing placed with
  | nil => cases placed <;> simp [place]
  | cons first rest ih =>
    rw [place]
    by_cases hname : first.typeName = mark.typeName
    · rw [if_pos hname, ih, List.mem_cons]
      refine or_congr_right (and_congr_left fun hne => (or_iff_right ?_).symm)
      rintro rfl
      exact hne hname
    · have hfirst : other = first → other.typeName ≠ mark.typeName := fun he => he ▸ hname
      rw [if_neg hname, List.mem_cons, or_and_right, and_iff_left_of_imp hfirst]
      split
      · rename_i hbefore
        obtain rfl : placed = false := by simpa using (Bool.and_eq_true_iff.mp hbefore).1
        simp [ih]
      · rw [List.mem_cons, ih, or_left_comm]

theorem mem_addToSet {mark other : Mark} {marks : List Mark}
    (h : other ∈ mark.addToSet marks) : other = mark ∨ other ∈ marks := by
  rw [addToSet] at h
  split at h
  · exact Or.inr h
  · exact (mem_place_iff.mp h).imp And.right And.left

/-- A set of marks has no others. -/
theorem mem_setOf {mark : Mark} {marks : List Mark} (h : mark ∈ setOf marks) : mark ∈ marks := by
  have hfold : ∀ (marks set : List Mark),
      mark ∈ marks.foldl (fun set mark => mark.addToSet set) set → mark ∈ set ∨ mark ∈ marks := by
    intro marks
    induction marks with
    | nil => exact fun set h => Or.inl h
    | cons first rest ih =>
      intro set h
      rcases ih _ h with h | h
      · rcases mem_addToSet h with rfl | h
        · exact Or.inr (List.mem_cons_self ..)
        · exact Or.inl h
      · exact Or.inr (List.mem_cons_of_mem _ h)
  exact (hfold marks [] h).resolve_left List.not_mem_nil

/-- Placing a mark leaves one mark of each type. -/
theorem distinct_place {mark : Mark} {marks : List Mark} {placed : Bool}
    (h : marks.Pairwise fun outer inner => outer.typeName ≠ inner.typeName) :
    (mark.place marks placed).Pairwise fun outer inner => outer.typeName ≠ inner.typeName := by
  induction marks generalizing placed with
  | nil => cases placed <;> simp [place]
  | cons first rest ih =>
    obtain ⟨hfirst, hrest⟩ := List.pairwise_cons.mp h
    rw [place]
    by_cases hname : first.typeName = mark.typeName
    · rw [if_pos hname]
      exact ih hrest
    · rw [if_neg hname]
      split
      · refine List.pairwise_cons.mpr ⟨fun other hother => ?_, List.pairwise_cons.mpr
          ⟨fun other hother => ?_, ih hrest⟩⟩
        · rcases List.mem_cons.mp hother with rfl | hother
          · exact Ne.symm hname
          · rcases mem_place_iff.mp hother with ⟨hplaced, -⟩ | ⟨-, hne⟩
            · cases hplaced
            · exact hne.symm
        · rcases mem_place_iff.mp hother with ⟨hplaced, -⟩ | ⟨hmem, -⟩
          · cases hplaced
          · exact hfirst other hmem
      · refine List.pairwise_cons.mpr ⟨fun other hother => ?_, ih hrest⟩
        rcases mem_place_iff.mp hother with ⟨-, rfl⟩ | ⟨hmem, -⟩
        · exact hname
        · exact hfirst other hmem

theorem distinct_addToSet {mark : Mark} {marks : List Mark}
    (h : marks.Pairwise fun outer inner => outer.typeName ≠ inner.typeName) :
    (mark.addToSet marks).Pairwise fun outer inner => outer.typeName ≠ inner.typeName := by
  rw [addToSet]
  split
  · exact h
  · exact distinct_place h

/-- A set of marks has one mark of each type. -/
theorem distinct_setOf (marks : List Mark) :
    (setOf marks).Pairwise fun outer inner => outer.typeName ≠ inner.typeName := by
  have hfold : ∀ (marks set : List Mark),
      set.Pairwise (fun outer inner => outer.typeName ≠ inner.typeName) →
      (marks.foldl (fun set mark => mark.addToSet set) set).Pairwise fun outer inner =>
        outer.typeName ≠ inner.typeName := by
    intro marks
    induction marks with
    | nil => exact fun set h => h
    | cons first rest ih => exact fun set h => ih _ (distinct_addToSet h)
  exact hfold marks [] .nil

end Mark

/-! ### Loading -/

namespace Schema

variable {schema : Schema} {s t : Nat}

theorem exists_decl_of_nodeType? {name : String} {type : NodeType}
    (h : schema.nodeType? name = some type) :
    (∃ decl ∈ schema.nodes, decl.type = type) ∧ type.name = name := by
  obtain ⟨decl, hdecl, rfl⟩ := Option.map_eq_some_iff.mp h
  have hname := List.find?_some hdecl
  exact ⟨⟨decl, List.mem_of_find?_eq_some hdecl, rfl⟩, beq_iff_eq.mp hname⟩

/-- A mark that is made has a declared type. -/
theorem exists_decl_of_mark {name : String} {given : Option Json.Fields} {mark : Mark}
    (h : schema.mark name given s = (.ok mark, t)) :
    ∃ decl ∈ schema.marks, decl.type = mark.type := by
  rw [Schema.mark] at h
  cases htype : schema.markType? name with
  | none =>
    rw [htype] at h
    cases h
  | some type =>
    rw [htype] at h
    obtain ⟨attrs, u, -, h⟩ := Building.bind_eq_ok.mp h
    cases h
    obtain ⟨decl, hdecl, he⟩ := Option.map_eq_some_iff.mp htype
    exact ⟨decl, List.mem_of_find?_eq_some hdecl, he⟩

theorem exists_decl_of_resolveMarks {forms : List MarkForm} {marks : List Mark}
    (h : schema.resolveMarks forms s = (.ok marks, t)) :
    ∀ mark ∈ marks, ∃ decl ∈ schema.marks, decl.type = mark.type := by
  induction forms generalizing s marks with
  | nil =>
    cases h
    exact List.forall_mem_nil _
  | cons form rest ih =>
    rw [resolveMarks] at h
    obtain ⟨mark, u, hmark, h⟩ := Building.bind_eq_ok.mp h
    obtain ⟨marks, v, hmarks, h⟩ := Building.bind_eq_ok.mp h
    cases h
    exact List.forall_mem_cons.mpr ⟨exists_decl_of_mark hmark, ih hmarks⟩

/-- A text node that is made follows the declarations. -/
theorem conforms_of_text {text : String} {marks : List Mark} {node : Node}
    (hmarks : ∀ mark ∈ marks, ∃ decl ∈ schema.marks, decl.type = mark.type)
    (h : schema.text text marks s = (.ok node, t)) : node.Conforms schema := by
  rw [Schema.text] at h
  split at h
  · cases h
  · cases htype : schema.nodeType? textTypeName with
    | none =>
      rw [htype] at h
      cases h
    | some type =>
      rw [htype] at h
      obtain ⟨attrs, u, -, h⟩ := Building.bind_eq_ok.mp h
      cases h
      obtain ⟨hdecl, hname⟩ := exists_decl_of_nodeType? htype
      exact .node hdecl (iff_of_true rfl hname) (fun _ => rfl)
        (fun mark hmark => hmarks mark (Mark.mem_setOf hmark)) (List.forall_mem_nil _)

/-- Another node that is made follows the declarations if its content does. -/
theorem conforms_of_node {name : String} {given : Option Json.Fields} {content : Fragment}
    {marks : List Mark} {node : Node}
    (hmarks : ∀ mark ∈ marks, ∃ decl ∈ schema.marks, decl.type = mark.type)
    (hcontent : ∀ child ∈ content, child.Conforms schema)
    (h : schema.node name given content marks s = (.ok node, t)) : node.Conforms schema := by
  rw [Schema.node] at h
  cases htype : schema.nodeType? name with
  | none =>
    rw [htype] at h
    cases h
  | some type =>
    rw [htype] at h
    dsimp only at h
    obtain ⟨hdecl, -⟩ := exists_decl_of_nodeType? htype
    by_cases htext : type.isText = true
    · rw [if_pos htext] at h
      cases h
    · rw [if_neg htext] at h
      obtain ⟨-, u, -, h⟩ := Building.bind_eq_ok.mp h
      obtain ⟨attrs, v, -, h⟩ := Building.bind_eq_ok.mp h
      by_cases hleaf : (type.isLeaf && !content.isEmpty) = true
      · rw [if_pos hleaf] at h
        cases h
      · rw [if_neg hleaf] at h
        cases h
        have hname : type.name ≠ textTypeName := fun he => htext (beq_iff_eq.mpr he)
        refine .node hdecl (iff_of_false Bool.false_ne_true hname) ?_
          (fun mark hmark => hmarks mark (Mark.mem_setOf hmark)) hcontent
        rintro (he | he)
        · exact absurd he hname
        · cases content with
          | nil => rfl
          | cons _ _ => exact absurd (Bool.and_eq_true_iff.mpr ⟨he, rfl⟩) hleaf

mutual

/-- A loaded node follows the declarations. -/
theorem conforms_of_resolveNode : (form : NodeForm) → {s t : Nat} → {node : Node} →
    schema.resolveNode form s = (.ok node, t) → node.Conforms schema
  | ⟨typeName, attrs, content, marks, text⟩, s, t, node, h => by
    rw [resolveNode] at h
    obtain ⟨resolved, u, hmarks, h⟩ := Building.bind_eq_ok.mp h
    have hmarks := exists_decl_of_resolveMarks hmarks
    by_cases htext : typeName = textTypeName
    · rw [if_pos htext] at h
      unfold resolveText at h
      dsimp only at h
      split at h
      · cases h
      cases text with
      | none => cases h
      | some text => exact conforms_of_text hmarks h
    · rw [if_neg htext] at h
      split at h
      · cases h
      · obtain ⟨nodes, v, hnodes, h⟩ := Building.bind_eq_ok.mp h
        exact conforms_of_node hmarks (conforms_of_resolveNodes content hnodes) h

theorem conforms_of_resolveNodes : (forms : List NodeForm) → {s t : Nat} → {nodes : List Node} →
    schema.resolveNodes forms s = (.ok nodes, t) → ∀ node ∈ nodes, node.Conforms schema
  | [], _, _, _, h => by
    rw [resolveNodes] at h
    cases h
    exact List.forall_mem_nil _
  | form :: rest, _, _, _, h => by
    rw [resolveNodes] at h
    obtain ⟨node, u, hnode, h⟩ := Building.bind_eq_ok.mp h
    obtain ⟨nodes, v, hnodes, h⟩ := Building.bind_eq_ok.mp h
    cases h
    exact List.forall_mem_cons.mpr
      ⟨conforms_of_resolveNode form hnode, conforms_of_resolveNodes rest hnodes⟩

end

/-- The map of a new node or mark has the next token. -/
theorem resolveAttrs_eq_ok {name : String} {decls : List AttrDecl} {given : Option Json.Fields}
    {attrs : Attrs} (h : resolveAttrs name decls given s = (.ok attrs, t)) :
    attrs.id = s ∧ t = s + 1 := by
  unfold resolveAttrs at h
  cases hfields : resolveFields name given decls [] with
  | error error =>
    rw [hfields] at h
    cases h
  | ok fields =>
    rw [hfields] at h
    cases h
    exact ⟨rfl, rfl⟩

/-- The maps of the marks and of the content were there before, and the node has a new one. -/
theorem made_of_node {name : String} {given : Option Json.Fields} {content : Fragment}
    {marks : List Mark} {node : Node} (h : schema.node name given content marks s = (.ok node, t)) :
    node.attrs.id = s ∧ t = s + 1 ∧ node.content = content ∧ node.marks = Mark.setOf marks := by
  rw [Schema.node] at h
  cases htype : schema.nodeType? name with
  | none =>
    rw [htype] at h
    cases h
  | some type =>
    rw [htype] at h
    dsimp only at h
    by_cases htext : type.isText = true
    · rw [if_pos htext] at h
      cases h
    · rw [if_neg htext] at h
      obtain ⟨attrs, u, hattrs, h⟩ := Building.bind_eq_ok.mp h
      obtain ⟨hid, rfl⟩ := resolveAttrs_eq_ok hattrs
      by_cases hleaf : (type.isLeaf && !content.isEmpty) = true
      · rw [if_pos hleaf] at h
        cases h
      · rw [if_neg hleaf] at h
        cases h
        exact ⟨hid, rfl, rfl, rfl⟩

theorem made_of_text {text : String} {marks : List Mark} {node : Node}
    (h : schema.text text marks s = (.ok node, t)) :
    node.attrs.id = s ∧ t = s + 1 ∧ node.content = [] ∧ node.marks = Mark.setOf marks := by
  rw [Schema.text] at h
  split at h
  · cases h
  · cases htype : schema.nodeType? textTypeName with
    | none =>
      rw [htype] at h
      cases h
    | some type =>
      rw [htype] at h
      cases h
      exact ⟨rfl, rfl, rfl, rfl⟩

mutual

/-- The marks of a loaded node are a set, and so are those of every node inside. -/
theorem setOf_of_resolveNode : (form : NodeForm) → {s t : Nat} → {node : Node} →
    schema.resolveNode form s = (.ok node, t) →
    ∀ x : Node, x.Inside node → ∃ marks, x.marks = Mark.setOf marks
  | ⟨typeName, attrs, content, marks, text⟩, s, t, node, h => by
    rw [resolveNode] at h
    obtain ⟨resolved, u, -, h⟩ := Building.bind_eq_ok.mp h
    intro x hx
    by_cases htext : typeName = textTypeName
    · rw [if_pos htext] at h
      unfold resolveText at h
      dsimp only at h
      split at h
      · cases h
      cases text with
      | none => cases h
      | some text =>
        obtain ⟨-, -, hnil, hset⟩ := made_of_text h
        cases hx with
        | self => exact ⟨resolved, hset⟩
        | content hchild _ =>
          rw [hnil] at hchild
          cases hchild
    · rw [if_neg htext] at h
      split at h
      · cases h
      · obtain ⟨nodes, v, hnodes, h⟩ := Building.bind_eq_ok.mp h
        obtain ⟨-, -, rfl, hset⟩ := made_of_node h
        cases hx with
        | self => exact ⟨resolved, hset⟩
        | content hchild hx => exact setOf_of_resolveNodes content hnodes _ hchild x hx

theorem setOf_of_resolveNodes : (forms : List NodeForm) → {s t : Nat} → {nodes : List Node} →
    schema.resolveNodes forms s = (.ok nodes, t) → ∀ node ∈ nodes,
    ∀ x : Node, x.Inside node → ∃ marks, x.marks = Mark.setOf marks
  | [], _, _, _, h => by
    rw [resolveNodes] at h
    cases h
    exact List.forall_mem_nil _
  | form :: rest, _, _, _, h => by
    rw [resolveNodes] at h
    obtain ⟨node, u, hnode, h⟩ := Building.bind_eq_ok.mp h
    obtain ⟨nodes, v, hnodes, h⟩ := Building.bind_eq_ok.mp h
    cases h
    exact List.forall_mem_cons.mpr
      ⟨setOf_of_resolveNode form hnode, setOf_of_resolveNodes rest hnodes⟩

end

/-- A document is loaded, from a value or from a text. -/
def Loads (schema : Schema) (node : Node) : Prop :=
  (∃ value s t, schema.loadJson value s = (.ok node, t)) ∨
    ∃ text s t, schema.loadText text s = (.ok node, t)

/-- A loaded document is what a form became. -/
theorem Loads.exists_form {node : Node} (h : schema.Loads node) :
    ∃ form s t, schema.resolveNode form s = (.ok node, t) := by
  rcases h with ⟨value, s, t, h⟩ | ⟨text, s, t, h⟩
  · unfold loadJson at h
    cases hform : NodeForm.ofJson value with
    | error mismatch =>
      rw [hform] at h
      cases h
    | ok form =>
      rw [hform] at h
      exact ⟨form, s, t, h⟩
  · unfold loadText loadDraft at h
    cases hform : NodeForm.ofDraftText (.ofText text) with
    | error fault =>
      rw [hform] at h
      cases h
    | ok form =>
      rw [hform] at h
      exact ⟨form, s, t, h⟩

/-- A loaded document follows the declarations. -/
theorem Loads.conforms {node : Node} (h : schema.Loads node) : node.Conforms schema := by
  obtain ⟨form, s, t, hform⟩ := h.exists_form
  exact conforms_of_resolveNode form hform

/-- In a loaded document the marks of a node have different types. -/
theorem Loads.distinct_marks {node x : Node} (h : schema.Loads node) (hx : x.Inside node) :
    x.marks.Pairwise fun outer inner => outer.typeName ≠ inner.typeName := by
  obtain ⟨form, s, t, hform⟩ := h.exists_form
  obtain ⟨marks, hset⟩ := setOf_of_resolveNode form hform x hx
  exact hset ▸ Mark.distinct_setOf marks

end Schema

end RichDoc
