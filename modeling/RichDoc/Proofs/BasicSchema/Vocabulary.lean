import RichDoc.BasicSchema
import RichDoc.Proofs.Serializer.Content

/-!
# The vocabulary of the basic schema

The templates of the basic schema use few elements, each with few attributes. Which ones they use
does not depend on what a document stores: a level only selects among the headings, and the values
of attributes are shown under names that the templates fix. Every node that follows the schema,
other than a document, is served by its template, and every mark is.
-/

namespace RichDoc

/-! ### Picked fields -/

namespace Json.Fields

theorem key_of_mem_insert {fields : Fields} {key : String} {value : Json} {field : String × Json}
    (h : field ∈ fields.insert key value) : field.1 = key ∨ field ∈ fields := by
  induction fields with
  | nil => exact Or.inl (congrArg Prod.fst (List.mem_singleton.mp h))
  | cons first rest ih =>
    obtain ⟨k, v⟩ := first
    rw [insert] at h
    split at h
    · rcases List.mem_cons.mp h with rfl | h
      · exact Or.inl ‹k = key›
      · exact Or.inr (List.mem_cons_of_mem _ h)
    · rcases List.mem_cons.mp h with rfl | h
      · exact Or.inr (List.mem_cons_self ..)
      · exact (ih h).imp_right (List.mem_cons_of_mem _)

theorem key_of_mem_ofPairs {pairs : List (String × Json)} {field : String × Json}
    (h : field ∈ ofPairs pairs) : field.1 ∈ pairs.map Prod.fst := by
  have hfold : ∀ (pairs : List (String × Json)) (fields : Fields),
      field ∈ pairs.foldl (fun fields pair => fields.insert pair.1 pair.2) fields →
        field ∈ fields ∨ field.1 ∈ pairs.map Prod.fst := by
    intro pairs
    induction pairs with
    | nil => exact fun fields h => Or.inl h
    | cons pair rest ih =>
      intro fields h
      rcases ih _ h with h | h
      · rcases key_of_mem_insert h with h | h
        · exact Or.inr (h ▸ List.mem_cons_self ..)
        · exact Or.inl h
      · exact Or.inr (List.mem_cons_of_mem _ h)
  exact (hfold pairs [] h).resolve_left List.not_mem_nil

/-- Only listed fields are picked. -/
theorem key_of_mem_pick {fields : Fields} {names : List String} {field : String × Json}
    (h : field ∈ fields.pick names) : field.1 ∈ names := by
  obtain ⟨pair, hpair, hkey⟩ := List.mem_map.mp (key_of_mem_ofPairs h)
  obtain ⟨name, hname, hvalue⟩ := List.mem_filterMap.mp hpair
  obtain ⟨value, -, rfl⟩ := Option.map_eq_some_iff.mp hvalue
  exact hkey ▸ hname

end Json.Fields

/-- The attributes of an element that is described have names of the description, each once. -/
theorem names_shownAttributes (attrs : List (String × Json)) :
    ((shownAttributes attrs).map fun a => a.name.localName).Nodup ∧
      ∀ a ∈ shownAttributes attrs, a.name.localName ∈ attrs.map Prod.fst := by
  obtain ⟨hnodup, hnames⟩ := Attribute.names_settled
    ((attrs.filter fun a => a.1 ≠ "").map fun a => (⟨.html a.1, a.2.shown⟩ : Attribute))
  have hkey : ∀ a ∈ shownAttributes attrs, ∃ key ∈ attrs.map Prod.fst, a.name = .html key := by
    intro a ha
    obtain ⟨b, hb, hname⟩ := List.mem_map.mp (hnames a ha)
    obtain ⟨attr, hattr, rfl⟩ := List.mem_map.mp hb
    exact ⟨attr.1, List.mem_map_of_mem (List.mem_filter.mp hattr).1, hname.symm⟩
  constructor
  · have hlocal : (((shownAttributes attrs).map Attribute.name).map QualName.localName).Nodup := by
      refine List.Nodup.map_on (fun x hx y hy hxy => ?_) hnodup
      obtain ⟨a, ha, rfl⟩ := List.mem_map.mp hx
      obtain ⟨b, hb, rfl⟩ := List.mem_map.mp hy
      obtain ⟨j, -, hj⟩ := hkey a ha
      obtain ⟨k, -, hk⟩ := hkey b hb
      rw [hj, hk] at hxy ⊢
      exact congrArg QualName.html hxy
    rw [List.map_map] at hlocal
    exact hlocal
  · intro a ha
    obtain ⟨key, hmem, hname⟩ := hkey a ha
    rw [hname]
    exact hmem

namespace BasicSchema

/-! ### The vocabulary -/

/-- The elements of the vocabulary, each with the attributes that it may have. -/
def vocabulary : List (String × List String) :=
  [("p", []), ("blockquote", []), ("hr", []), ("h1", []), ("h2", []), ("h3", []), ("h4", []),
    ("h5", []), ("h6", []), ("pre", []), ("code", []), ("img", ["src", "alt", "title"]),
    ("br", []), ("ol", ["start"]), ("ul", []), ("li", []), ("a", ["href", "title"]), ("em", []),
    ("strong", [])]

/-- The elements of the vocabulary that have no content. -/
def childless : List String := ["hr", "img", "br"]

/-- A tag is in the vocabulary, and an element with this tag may have attributes of these names. -/
def Allows (tag : String) (names : List String) : Prop :=
  ∃ allowed, (tag, allowed) ∈ vocabulary ∧ ∀ name ∈ names, name ∈ allowed

theorem printable_of_allows {tag : String} {attrs : List (String × Json)}
    (h : Allows tag (attrs.map Prod.fst)) : Spec.Printable tag attrs := by
  have hall : ∀ entry ∈ vocabulary, Html.isTagName entry.1 = true ∧
      ∀ name ∈ entry.2, Html.isAttrName name = true := by decide
  obtain ⟨allowed, hmem, hnames⟩ := h
  obtain ⟨htag, hkeys⟩ := hall _ hmem
  exact ⟨htag, fun attr hattr => Or.inr (hkeys _ (hnames _ (List.mem_map_of_mem hattr)))⟩

/-- Void elements of the vocabulary have no content. -/
theorem mem_childless_of_isVoid {tag : String} {names : List String} (h : Allows tag names)
    (hvoid : Html.isVoid tag = true) : tag ∈ childless := by
  have hall : ∀ entry ∈ vocabulary, Html.isVoid entry.1 = true → entry.1 ∈ childless := by decide
  obtain ⟨allowed, hmem, -⟩ := h
  exact hall _ hmem hvoid

/-- A node that the basic schema may show: a text, or an element of the vocabulary with attributes
that it may have, none of them twice. -/
def Shown (data : NodeData) (children : List Outline) : Prop :=
  match data with
  | .text _ => True
  | .element name attrs =>
    Allows name.localName (attrs.map fun a => a.name.localName) ∧
      (attrs.map fun a => a.name.localName).Nodup ∧ (name.localName ∈ childless → children = [])
  | .document => False
  | .comment _ => False

/-- An element that is described with a tag and with attributes of the vocabulary. -/
theorem shown_element {tag : String} {attrs : List (String × Json)} {children : List Outline}
    (h : Allows tag (attrs.map Prod.fst)) (hchildren : tag ∈ childless → children = []) :
    Shown (.element (.html tag) (shownAttributes attrs)) children := by
  obtain ⟨hnodup, hnames⟩ := names_shownAttributes attrs
  obtain ⟨allowed, hmem, hkeys⟩ := h
  refine ⟨⟨allowed, hmem, fun name hname => ?_⟩, hnodup, hchildren⟩
  obtain ⟨a, ha, rfl⟩ := List.mem_map.mp hname
  exact hkeys _ (hnames a ha)

theorem wraps_element {tag : String} {attrs : List (String × Json)}
    (h : Allows tag (attrs.map Prod.fst)) (hcontent : tag ∉ childless) :
    (Spec.element tag attrs [.hole]).Wraps Shown :=
  .hole (printable_of_allows h)
    ⟨rfl, fun _ => shown_element h fun hmem => absurd hmem hcontent⟩

theorem tells_element {tag : String} {attrs : List (String × Json)}
    (h : Allows tag (attrs.map Prod.fst)) : (Spec.element tag attrs []).Tells Shown "" :=
  .element (printable_of_allows h) (shown_element h fun _ => rfl)

theorem headingTag_mem (level : Option Json) :
    headingTag level ∈ ["h1", "h2", "h3", "h4", "h5", "h6"] := by
  unfold headingTag
  split <;> simp

/-- Whatever the level of a heading is, its tag is one of a heading. -/
theorem heading_wraps (node : Node) : (heading node).Wraps Shown := by
  have htags : ∀ tag ∈ ["h1", "h2", "h3", "h4", "h5", "h6"],
      (tag, ([] : List String)) ∈ vocabulary ∧ tag ∉ childless := by decide
  obtain ⟨hmem, hcontent⟩ := htags _ (headingTag_mem (node.attrs.get? "level"))
  exact wraps_element ⟨[], hmem, List.forall_mem_nil _⟩ hcontent

theorem codeBlock_wraps (node : Node) : (codeBlock node).Wraps Shown := by
  have hpre : Allows "pre" [] := ⟨[], by decide, List.forall_mem_nil _⟩
  have hcode : Allows "code" [] := ⟨[], by decide, List.forall_mem_nil _⟩
  refine .around (printable_of_allows hpre) ⟨rfl, fun _ => ?_⟩ (wraps_element hcode (by decide))
  exact shown_element hpre fun hmem => absurd hmem (by decide)

/-- Whatever the order of a list is, it is shown under one name. -/
theorem orderedList_wraps (node : Node) : (orderedList node).Wraps Shown := by
  refine wraps_element ⟨["start"], by decide, fun name hname => ?_⟩ (by decide)
  obtain ⟨attr, hattr, rfl⟩ := List.mem_map.mp hname
  unfold listStart at hattr
  split at hattr
  · cases hattr
  · split at hattr
    · cases hattr
    · rw [List.mem_singleton] at hattr
      rw [hattr]
      exact List.mem_singleton.mpr rfl

/-- Images show the listed attributes only. -/
theorem image_tells (node : Node) : (image node).Tells Shown "" := by
  refine tells_element ⟨["src", "alt", "title"], by decide, fun name hname => ?_⟩
  obtain ⟨attr, hattr, rfl⟩ := List.mem_map.mp hname
  exact Json.Fields.key_of_mem_pick hattr

/-- Links show the listed attributes only. -/
theorem link_wraps (mark : Mark) (isInline : Bool) : (link mark isInline).Wraps Shown := by
  refine wraps_element ⟨["href", "title"], by decide, fun name hname => ?_⟩ (by decide)
  obtain ⟨attr, hattr, rfl⟩ := List.mem_map.mp hname
  exact Json.Fields.key_of_mem_pick hattr

/-- An element without attributes that holds the content. -/
theorem wrap_wraps {tag : String} (hmem : (tag, []) ∈ vocabulary) (hcontent : tag ∉ childless) :
    (Spec.wrap tag).Wraps Shown :=
  wraps_element ⟨[], hmem, List.forall_mem_nil _⟩ hcontent

/-! ### The templates -/

/-- Only documents have no template. -/
theorem hasNode_templates {node : Node} (h : node.Conforms schema) :
    schema.templates.hasNode node.typeName = false ↔ node.typeName = "doc" := by
  have hall : ∀ decl ∈ schema.nodes,
      schema.templates.hasNode decl.type.name = false ↔ decl.type.name = "doc" := by
    decide
  obtain ⟨decl, hdecl, htype⟩ := h.exists_decl
  rw [Node.typeName, ← htype]
  exact hall decl hdecl

section

variable {node : Node} {type : NodeType} {template : NodeTemplate}

/-- A node of a type that holds content is served by a wrapper. -/
theorem serves_of_wraps (h : node.Conforms schema) (htype : type = node.type)
    (htemplate : schema.templates.node? type.name = some template)
    (hname : type.name ≠ textTypeName) (hleaf : type.isLeaf = false)
    (hwraps : (template node).Wraps Shown) : schema.templates.Serves Shown node := by
  subst htype
  refine .wrapper htemplate hwraps hleaf ?_
  rw [← Option.not_isSome_iff_eq_none, h.isSome_text_iff]
  exact hname

/-- A node of a type without content that carries no text is served by a leaf without text. -/
theorem serves_of_tells (h : node.Conforms schema) (htype : type = node.type)
    (htemplate : schema.templates.node? type.name = some template)
    (hname : type.name ≠ textTypeName) (hleaf : type.isLeaf = true)
    (htells : (template node).Tells Shown "") : schema.templates.Serves Shown node := by
  subst htype
  have hcontent := h.content_eq_nil (Or.inr hleaf)
  have htext : node.text = none := by
    rw [← Option.not_isSome_iff_eq_none, h.isSome_text_iff]
    exact hname
  refine .leaf htemplate ?_ hcontent
  rw [Node.textContent_of_text htext, hcontent, Node.textContents]
  exact htells

/-- A text is served by its text. -/
theorem serves_text (h : node.Conforms schema) (hname : node.typeName = textTypeName) :
    schema.templates.Serves Shown node := by
  have htemplate : schema.templates.node? node.typeName = some textTemplate := by
    rw [hname]
    rfl
  refine .leaf htemplate ?_ (h.content_eq_nil (Or.inl hname))
  obtain ⟨text, htext⟩ := Option.isSome_iff_exists.mp (h.isSome_text_iff.mpr hname)
  obtain ⟨type, attrs, content, marks, text'⟩ := node
  obtain rfl : text' = some text := htext
  exact .text trivial

end

/-- Every node other than a document is served by its template. -/
theorem serves {node : Node} (h : node.Conforms schema) (hname : node.typeName ≠ "doc") :
    schema.templates.Serves Shown node := by
  obtain ⟨decl, hdecl, htype⟩ := h.exists_decl
  simp only [schema, nodes, List.mem_cons, List.not_mem_nil, or_false] at hdecl
  rcases hdecl with rfl | rfl | rfl | rfl | rfl | rfl | rfl | rfl | rfl | rfl | rfl | rfl
  · exact absurd (congrArg NodeType.name htype.symm) hname
  · exact serves_of_wraps h htype rfl (by decide) rfl (wrap_wraps (by decide) (by decide))
  · exact serves_of_wraps h htype rfl (by decide) rfl (wrap_wraps (by decide) (by decide))
  · exact serves_of_tells h htype rfl (by decide) rfl
      (tells_element ⟨[], by decide, List.forall_mem_nil _⟩)
  · exact serves_of_wraps h htype rfl (by decide) rfl (heading_wraps node)
  · exact serves_of_wraps h htype rfl (by decide) rfl (codeBlock_wraps node)
  · exact serves_text h (congrArg NodeType.name htype.symm)
  · exact serves_of_tells h htype rfl (by decide) rfl (image_tells node)
  · exact serves_of_tells h htype rfl (by decide) rfl
      (tells_element ⟨[], by decide, List.forall_mem_nil _⟩)
  · exact serves_of_wraps h htype rfl (by decide) rfl (orderedList_wraps node)
  · exact serves_of_wraps h htype rfl (by decide) rfl (wrap_wraps (by decide) (by decide))
  · exact serves_of_wraps h htype rfl (by decide) rfl (wrap_wraps (by decide) (by decide))

/-- Every mark is served by its template. -/
theorem servesMark {mark : Mark} (h : ∃ decl ∈ schema.marks, decl.type = mark.type) :
    schema.templates.ServesMark Shown mark := by
  obtain ⟨decl, hdecl, htype⟩ := h
  simp only [schema, marks, rankFrom, List.mem_cons, List.not_mem_nil, or_false] at hdecl
  rw [TemplateTable.ServesMark, Mark.typeName, ← htype]
  rcases hdecl with rfl | rfl | rfl | rfl | rfl | rfl
  · exact ⟨link, rfl, link_wraps mark⟩
  · exact ⟨_, rfl, fun _ => wrap_wraps (by decide) (by decide)⟩
  · exact ⟨_, rfl, fun _ => wrap_wraps (by decide) (by decide)⟩
  · exact ⟨_, rfl, fun _ => wrap_wraps (by decide) (by decide)⟩
  · exact ⟨_, rfl, fun _ => wrap_wraps (by decide) (by decide)⟩
  · exact ⟨_, rfl, fun _ => wrap_wraps (by decide) (by decide)⟩

/-- The templates serve every node that follows the schema, and all nodes below it. -/
theorem served {node : Node} (h : node.Conforms schema) :
    node.Served schema.templates Shown := by
  induction node using Node.induction_content with
  | step node ih =>
    refine .intro (fun htemplate => serves h fun hname => ?_) ?_ ?_
    · rw [(hasNode_templates h).mpr hname] at htemplate
      cases htemplate
    · obtain ⟨-, -, -, hmarks, -⟩ := h
      exact fun mark hmark => servesMark (hmarks mark hmark)
    · obtain ⟨-, -, -, -, hcontent⟩ := h
      exact fun child hchild => ih child hchild (hcontent child hchild)

end BasicSchema

end RichDoc
