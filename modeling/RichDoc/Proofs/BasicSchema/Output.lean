import RichDoc.Doc.Load
import RichDoc.Proofs.BasicSchema.Vocabulary
import RichDoc.Proofs.Html.RoundTrip

/-!
# What the basic schema puts out

Content expressions are not enforced, so a loaded document may nest the declared types in any way,
and its attributes may hold any values. Still only a nested document can make serializing fail, no
text is lost, and the markup that is read back has only elements and attributes of the vocabulary.
-/

namespace RichDoc.BasicSchema

open Html (Markup)

/-! ### Markup of the vocabulary -/

/-- Markup whose elements are in the vocabulary, with attributes that they may have, none of them
twice, and without content where there is to be none. -/
inductive Basic : Markup → Prop where
  | text (text : String) : Basic (.text text)
  | element {tag : String} {attrs : List (String × String)} {children : List Markup} :
      Allows tag (attrs.map Prod.fst) → (attrs.map Prod.fst).Nodup →
      (tag ∈ childless → children = []) → (∀ child ∈ children, Basic child) →
      Basic (.element tag attrs children)

/-- A node of a tree may be shown. -/
def ShownIn (data : NodeData) (children : List Tree) : Prop :=
  Shown data (Tree.outlines none children)

theorem ShownIn.uncommented {data : NodeData} {children : List Tree} (h : ShownIn data children) :
    data.Uncommented children := by
  cases data with
  | comment text => exact h.elim
  | _ => rfl

theorem ShownIn.children_eq_nil {name : QualName} {attrs : List Attribute} {children : List Tree}
    (h : ShownIn (.element name attrs) children) (hname : name.localName ∈ childless) :
    children = [] := by
  have hnone := h.2.2 hname
  rw [Tree.outlines_eq_map] at hnone
  exact List.map_eq_nil_iff.mp hnone

theorem ShownIn.voidEmpty {data : NodeData} {children : List Tree} (h : ShownIn data children) :
    data.VoidEmpty children := by
  intro name hname hvoid
  cases data with
  | element name' attrs =>
    obtain rfl : name' = name := Option.some.inj hname
    exact h.children_eq_nil (mem_childless_of_isVoid h.1 hvoid)
  | _ => cases hname

theorem basic_addText (text : String) {rest : List Markup} (h : ∀ markup ∈ rest, Basic markup) :
    ∀ markup ∈ Html.addText text rest, Basic markup := by
  unfold Html.addText
  split
  · exact h
  · split
    · exact List.forall_mem_cons.mpr ⟨.text _, (List.forall_mem_cons.mp h).2⟩
    · exact List.forall_mem_cons.mpr ⟨.text _, h⟩

mutual

/-- What a tree says is in the vocabulary if its nodes may be shown. -/
theorem basic_addTree : (tree : Tree) → tree.Each ShownIn → {rest : List Markup} →
    (∀ markup ∈ rest, Basic markup) → ∀ markup ∈ Html.addTree tree rest, Basic markup
  | .absent _, _, _, hrest => hrest
  | .node _ .document children, h, _, hrest => h.1.elim
  | .node _ (.text text) _, _, _, hrest => basic_addText text hrest
  | .node _ (.comment _) _, _, _, hrest => hrest
  | .node _ (.element name attrs) children, h, _, hrest => by
    rw [Html.addTree]
    split
    · refine List.forall_mem_cons.mpr ⟨?_, hrest⟩
      have hkept : ((Html.keptAttrs attrs).map Prod.fst).Sublist
          (attrs.map fun a => a.name.localName) := by
        rw [Html.keptAttrs, List.map_map]
        exact List.filter_sublist.map _
      obtain ⟨⟨allowed, hmem, hnames⟩, hnodup, -⟩ := h.1
      refine .element ⟨allowed, hmem, fun key hkey => hnames key (hkept.subset hkey)⟩
        (hnodup.sublist hkept) (fun hchildless => ?_)
        (basic_addTrees children h.2 (List.forall_mem_nil _))
      rw [ShownIn.children_eq_nil h.1 hchildless, Html.addTrees]
    · exact basic_addTrees children h.2 hrest

theorem basic_addTrees : (trees : List Tree) → Tree.EachOf ShownIn trees →
    {rest : List Markup} → (∀ markup ∈ rest, Basic markup) →
    ∀ markup ∈ Html.addTrees trees rest, Basic markup
  | [], _, _, hrest => hrest
  | tree :: trees, h, _, hrest => basic_addTree tree h.1 (basic_addTrees trees h.2 hrest)

end

/-- The text of trees that may be shown is read back as markup of the vocabulary. -/
theorem exists_decode {trees : List Tree} (h : Tree.EachOf ShownIn trees) (style : Html.Style) :
    ∃ forest, Html.decode style (Html.printAll style trees) = some forest ∧
      ∀ markup ∈ forest, Basic markup :=
  ⟨_, Html.decode_printAll style trees (h.imp fun _ _ => ShownIn.uncommented)
      (Or.inr (h.imp fun _ _ => ShownIn.voidEmpty)),
    basic_addTrees trees h (List.forall_mem_nil _)⟩

/-! ### Loaded documents -/

/-- A heading whose level is markup, with a text in a link to an array, and an image whose source
ends in a quote. -/
def sampleValue : Json :=
  .obj [("type", .str "doc"), ("content", .arr [
    .obj [("type", .str "heading"), ("attrs", .obj [("level", .str "1><script>")]),
      ("content", .arr [.obj [("type", .str "text"), ("text", .str "a < b"),
        ("marks", .arr [.obj [("type", .str "link"),
          ("attrs", .obj [("href", .arr [.str "script"])])]])]])],
    .obj [("type", .str "image"), ("attrs", .obj [("src", .str "\" onload=\"x")])]])]

/-- The document that is loaded from the value. -/
def sampleDocument : Node := ((schema.loadJson sampleValue 0).1.toOption).getD default

theorem loads_sampleDocument : schema.Loads sampleDocument :=
  Or.inl ⟨sampleValue, 0, _, rfl⟩

section

variable {node : Node} {serializer : Serializer}

theorem served_of_loads (h : schema.Loads node) (hs : serializer.templates = schema.templates) :
    node.Served serializer.templates Shown := by
  rw [hs]
  exact served h.conforms

/-- What lacks only templates of some nodes that follow the schema succeeds if none of them is a
document, and otherwise says that documents have no template. -/
theorem accounts_iff {α : Type} {inside : Node → Prop} {result : Except Error α}
    (hinside : ∀ x, inside x → x.Conforms schema)
    (h : schema.templates.Accounts inside result) :
    ((∃ a, result = .ok a) ↔ ∀ x, inside x → x.typeName ≠ "doc") ∧
      ∀ error, result = .error error → error = .missingTemplate "doc" := by
  constructor
  · rw [h.isOk_iff]
    refine forall₂_congr fun x hx => ?_
    rw [ne_eq, ← hasNode_templates (hinside x hx), Bool.not_eq_false]
  · rintro error rfl
    obtain ⟨x, hx, hnone, rfl⟩ := h
    rw [(hasNode_templates (hinside x hx)).mp hnone]

/-- Serializing with the basic schema is total and loses no text. Only a document inside makes it
fail, which has no template, and the container of the content says the text of the content. -/
theorem html_total (h : schema.Loads node) (hs : serializer.templates = schema.templates)
    (policy : MarkPolicy) (style : Html.Style) :
    ((∃ html, serializer.fragmentToHtml policy style node.content = .ok html) ↔
        ∀ x : Node, (∃ child ∈ node.content, x.Inside child) → x.typeName ≠ "doc") ∧
      ((∃ html, serializer.nodeToHtml policy style node = .ok html) ↔
        ∀ x : Node, x.Inside node → x.typeName ≠ "doc") ∧
      (∀ error, serializer.fragmentToHtml policy style node.content = .error error ∨
        serializer.nodeToHtml policy style node = .error error → error = .missingTemplate "doc") ∧
      ((∃ built, serializer.fragmentToDom policy node.content = .ok built) ↔
        ∃ html, serializer.fragmentToHtml policy style node.content = .ok html) ∧
      ∀ built, serializer.fragmentToDom policy node.content = .ok built →
        built.dom.innerText built.root = Fragment.textContent node.content := by
  have hnode := served_of_loads h hs
  have hinside : ∀ x : Node, (∃ child ∈ node.content, x.Inside child) → x.Conforms schema := by
    rintro x ⟨child, hchild, hx⟩
    exact h.conforms.of_inside (.content hchild hx)
  have hdom := Serializer.fragmentToDom_accounts hnode.content policy
  have hfragment := Serializer.fragmentToHtml_accounts hnode.content policy style
  have hwhole := Serializer.nodeToHtml_accounts hnode policy style
  rw [hs] at hdom hfragment hwhole
  obtain ⟨hdom, -⟩ := accounts_iff hinside hdom
  obtain ⟨hfragment, hfragmentError⟩ := accounts_iff hinside hfragment
  obtain ⟨hwhole, hwholeError⟩ := accounts_iff (fun x hx => h.conforms.of_inside hx) hwhole
  exact ⟨hfragment, hwhole, fun error he => he.elim (hfragmentError error) (hwholeError error),
    hdom.trans hfragment.symm, fun built => Serializer.innerText_of_fragmentToDom hnode.content⟩

/-- The sample holds a document only as its root. So its content is serialized, with its text, and
it is not. -/
theorem html_total_sample :
    (∃ html, (Serializer.ofSchema schema).fragmentToHtml .strict ⟨false⟩ sampleDocument.content =
        .ok html) ∧
      (Serializer.ofSchema schema).nodeToHtml .strict ⟨false⟩ sampleDocument =
        .error (.missingTemplate "doc") ∧
      ∀ built, (Serializer.ofSchema schema).fragmentToDom .strict sampleDocument.content =
        .ok built → built.dom.innerText built.root = "a < b" := by
  have hs : (Serializer.ofSchema schema).templates = schema.templates := rfl
  obtain ⟨-, hwhole, herror, -, htext⟩ := html_total loads_sampleDocument hs .strict ⟨false⟩
  refine ⟨⟨_, rfl⟩, ?_, htext⟩
  rcases hresult : (Serializer.ofSchema schema).nodeToHtml .strict ⟨false⟩ sampleDocument with
    error | html
  · rw [herror error (Or.inr hresult)]
  · exact absurd rfl (hwhole.mp ⟨html, hresult⟩ sampleDocument (.self _))

/-- No document injects markup. Whatever a loaded document stores, its HTML is read back as markup
of the vocabulary. -/
theorem decode_html (h : schema.Loads node) (hs : serializer.templates = schema.templates)
    {policy : MarkPolicy} {style : Html.Style} {html : String}
    (hrun : serializer.fragmentToHtml policy style node.content = .ok html ∨
      serializer.nodeToHtml policy style node = .ok html) :
    ∃ forest, Html.decode style html = some forest ∧ ∀ markup ∈ forest, Basic markup := by
  have hnode := served_of_loads h hs
  obtain ⟨trees, rfl, htrees⟩ : ∃ trees, html = Html.printAll style trees ∧
      Tree.EachOf ShownIn trees := by
    rcases hrun with hrun | hrun
    · exact Serializer.exists_trees_of_fragmentToHtml hnode.content hrun
    · exact Serializer.exists_trees_of_nodeToHtml hnode hrun
  exact exists_decode htrees style

/-- The HTML of the content of the sample. -/
def sampleHtml : String :=
  "<h1><a href=\"[&quot;script&quot;]\" title=\"\">a &lt; b</a></h1>" ++
    "<img src=\"&quot; onload=&quot;x\" alt=\"\" title=\"\">"

/-- Neither the level nor the source of the sample is read back as markup. -/
theorem decode_html_sample :
    (Serializer.ofSchema schema).fragmentToHtml .strict ⟨false⟩ sampleDocument.content =
        .ok sampleHtml ∧
      ∃ forest, Html.decode ⟨false⟩ sampleHtml = some forest ∧
        ∀ markup ∈ forest, Basic markup := by
  have hs : (Serializer.ofSchema schema).templates = schema.templates := rfl
  have hrun : (Serializer.ofSchema schema).fragmentToHtml .strict ⟨false⟩ sampleDocument.content =
      .ok sampleHtml := rfl
  exact ⟨hrun, decode_html loads_sampleDocument hs (Or.inl hrun)⟩

end

end RichDoc.BasicSchema
