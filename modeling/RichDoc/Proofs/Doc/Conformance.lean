import RichDoc.Proofs.Doc.Declared
import RichDoc.Proofs.Doc.MarkSets

/-!
# Documents that conform

A stored form conforms to a schema if each of its nodes does on its own. Resolving a form makes a
document exactly if the form conforms, and then the document mirrors it: node by node it has the
types of the form and the attributes that these declare. Otherwise the error is the first in a list
of all that is wrong, which goes through the form in a fixed order.
-/

namespace RichDoc

open Json (Fields)

/-! ### Work that fails at the first error -/

/-- Work that makes something settles a list of errors: it succeeds only if there is none, with a
result that has a property, and fails only with the first of them. -/
structure Making.Settles {α : Type} (work : Making α) (errors : List Error) (R : α → Prop) :
    Prop where
  ok : ∀ {s t a}, work s = (.ok a, t) → errors = [] ∧ R a
  error : ∀ {s t error}, work s = (.error error, t) → errors.head? = some error

namespace Making.Settles

variable {α β : Type} {errors others : List Error} {R : α → Prop} {S : β → Prop}

theorem pure {a : α} (h : R a) : Settles (pure a) [] R where
  ok hrun := by
    cases hrun
    exact ⟨rfl, h⟩
  error hrun := nomatch hrun

theorem throw (error : Error) : Settles (throw error) (error :: errors) R where
  ok hrun := nomatch hrun
  error hrun := by
    cases hrun
    rfl

/-- Errors of the first part come before those of the second. -/
theorem bind {work : Making α} {next : α → Making β} (hw : Settles work errors R)
    (hn : ∀ a, R a → Settles (next a) others S) :
    Settles (work >>= next) (errors ++ others) S where
  ok hrun := by
    obtain ⟨a, u, hwork, hnext⟩ := Building.bind_eq_ok.mp hrun
    obtain ⟨hnone, hr⟩ := hw.ok hwork
    obtain ⟨hnone', hs⟩ := (hn a hr).ok hnext
    exact ⟨by rw [hnone, hnone', List.nil_append], hs⟩
  error hrun := by
    rw [List.head?_append]
    rcases Building.bind_eq_error.mp hrun with hwork | ⟨a, u, hwork, hnext⟩
    · rw [hw.error hwork]
      rfl
    · obtain ⟨hnone, hr⟩ := hw.ok hwork
      rw [hnone, (hn a hr).error hnext]
      rfl

/-- What follows the last check fails no more. -/
theorem map {work : Making α} (hw : Settles work errors R) {f : α → β} (hf : ∀ a, R a → S (f a)) :
    Settles (work >>= fun a => Pure.pure (f a)) errors S := by
  rw [← List.append_nil errors]
  exact hw.bind fun a hr => .pure (hf a hr)

/-- What follows an error is skipped. -/
theorem throw_bind (error : Error) {next : α → Making β} :
    Settles (MonadExcept.throw error >>= next) (error :: others) S where
  ok hrun := nomatch hrun
  error hrun := by
    cases hrun
    rfl

/-- A check comes before the work that goes on when it is passed. -/
theorem check {stop work : Making α} {p : Prop} [Decidable p] {error : Error}
    (hstop : Settles stop (error :: errors) R) (hw : ¬p → Settles work errors R) :
    Settles (if p then stop else work) ((if p then [error] else []) ++ errors) R := by
  split
  · exact hstop
  · exact hw ‹_›

end Making.Settles

/-! ### Forms and what they stand for -/

/-- A form at or below another one. -/
inductive NodeForm.Inside : NodeForm → NodeForm → Prop where
  | self (form : NodeForm) : NodeForm.Inside form form
  | content {x child form : NodeForm} : child ∈ form.content → NodeForm.Inside x child →
      NodeForm.Inside x form

/-- The type of a mark is declared, and every attribute that it has no default for is given. -/
def MarkForm.Obeys (schema : Schema) (form : MarkForm) : Prop :=
  ∃ decl ∈ schema.marks, decl.type.name = form.typeName ∧ Gives decl.type.attrs form.attrs

/-- A node on its own conforms. The forms below it are left out. -/
structure NodeForm.Obeys (schema : Schema) (form : NodeForm) : Prop where
  marks : ∀ mark ∈ form.marks, mark.Obeys schema
  text : form.typeName = textTypeName →
    form.content = [] ∧ ∃ text, form.text = some text ∧ text ≠ ""
  other : form.typeName ≠ textTypeName → form.text = none ∧
    ∃ decl ∈ schema.nodes, decl.type.name = form.typeName ∧ Gives decl.type.attrs form.attrs ∧
      (decl.type.isLeaf = true → form.content = [])

/-- A mark has the type of a form and the attributes that it declares. -/
structure MarkForm.MirroredBy (schema : Schema) (form : MarkForm) (mark : Mark) : Prop where
  decl : ∃ decl ∈ schema.marks, decl.type = mark.type
  type : mark.typeName = form.typeName
  attrs : Resolves mark.type.attrs form.attrs mark.attrs.fields

/-- A node has the type and the text of a form, the attributes that its type declares, and the set
of the marks of the form: in the order of their ranks, with the last mark of each type. The content
is left out. -/
structure NodeForm.Matches (schema : Schema) (form : NodeForm) (node : Node) : Prop where
  decl : ∃ decl ∈ schema.nodes, decl.type = node.type
  type : node.typeName = form.typeName
  attrs : Resolves node.type.attrs form.attrs node.attrs.fields
  marks : ∃ marks, List.Forall₂ (MarkForm.MirroredBy schema) form.marks marks ∧
    node.marks = Mark.setOf marks ∧ Mark.Normalizes marks node.marks
  text : node.text = form.text
  isSome_text : node.text.isSome = true ↔ node.typeName = textTypeName

/-- A node has the shape of a form, and every node in it matches. -/
inductive NodeForm.MirroredBy (schema : Schema) : NodeForm → Node → Prop where
  | intro {form : NodeForm} {node : Node} : form.Matches schema node →
      List.Forall₂ (NodeForm.MirroredBy schema) form.content node.content →
      NodeForm.MirroredBy schema form node

/-! ### All that is wrong -/

/-- What is wrong with a mark. -/
def MarkForm.errors (schema : Schema) (form : MarkForm) : List Error :=
  match schema.markType? form.typeName with
  | none => [.unknownMarkType form.typeName]
  | some type => missingAttributes form.typeName type.attrs form.attrs

/-- What is wrong with the content and the text of a text node. -/
def textErrors (content : List NodeForm) (text : Option String) : List Error :=
  (if (!content.isEmpty) = true then [.invalidDocument .textWithContent] else []) ++
    match text with
    | none => [.invalidDocument .textWithoutText]
    | some text => if text.isEmpty = true then [.invalidDocument .emptyText] else []

/-- What is wrong with the type of another node, with its attributes, and with there being
content. -/
def typeErrors (schema : Schema) (typeName : String) (attrs : Option Fields) (hasContent : Bool) :
    List Error :=
  match schema.nodeType? typeName with
  | none => [.unknownNodeType typeName]
  | some type => missingAttributes typeName type.attrs attrs ++
      if (type.isLeaf && hasContent) = true then [.invalidDocument (.leafWithContent typeName)]
      else []

mutual

/-- All that is wrong with a form: its marks one after another, then its content and text if it is a
text node, and else a text, the forms below it one after another, and its type. -/
def NodeForm.errors (schema : Schema) : NodeForm → List Error
  | ⟨typeName, attrs, content, marks, text⟩ =>
    marks.flatMap (MarkForm.errors schema) ++
      if typeName = textTypeName then textErrors content text
      else (if text.isSome = true then [.invalidDocument (.textOutsideText typeName)] else []) ++
        (contentErrors schema content ++ typeErrors schema typeName attrs (!content.isEmpty))

/-- All that is wrong with forms, one after another. -/
def contentErrors (schema : Schema) : List NodeForm → List Error
  | [] => []
  | form :: rest => NodeForm.errors schema form ++ contentErrors schema rest

end

/-! ### Nothing is wrong with conforming forms -/

section

variable {schema : Schema}

theorem MarkForm.errors_eq_nil_iff (hs : schema.Regular) (form : MarkForm) :
    form.errors schema = [] ↔ form.Obeys schema := by
  unfold MarkForm.errors
  cases htype : schema.markType? form.typeName with
  | none =>
    refine iff_of_false (List.cons_ne_nil _ _) fun ⟨decl, hdecl, hname, _⟩ => ?_
    rw [← hname, hs.markType?_eq hdecl] at htype
    cases htype
  | some type =>
    dsimp only
    rw [missingAttributes_eq_nil_iff]
    constructor
    · intro hgives
      obtain ⟨decl, hdecl, rfl⟩ := Option.map_eq_some_iff.mp htype
      have hname := List.find?_some hdecl
      exact ⟨decl, List.mem_of_find?_eq_some hdecl, beq_iff_eq.mp hname, hgives⟩
    · rintro ⟨decl, hdecl, hname, hgives⟩
      rw [← hname, hs.markType?_eq hdecl] at htype
      cases htype
      exact hgives

theorem textErrors_eq_nil_iff (content : List NodeForm) (text : Option String) :
    textErrors content text = [] ↔ content = [] ∧ ∃ value, text = some value ∧ value ≠ "" := by
  unfold textErrors
  rw [List.append_eq_nil_iff]
  refine and_congr ?_ ?_
  · cases content with
    | nil => exact iff_of_true rfl rfl
    | cons form rest => exact iff_of_false (List.cons_ne_nil _ _) (List.cons_ne_nil _ _)
  · cases text with
    | none => exact iff_of_false (List.cons_ne_nil _ _) nofun
    | some value =>
      dsimp only
      by_cases hempty : value.isEmpty = true
      · rw [if_pos hempty]
        refine iff_of_false (List.cons_ne_nil _ _) ?_
        rintro ⟨other, ⟨⟩, hne⟩
        exact hne (String.isEmpty_iff.mp hempty)
      · rw [if_neg hempty]
        exact iff_of_true rfl ⟨value, rfl, fun he => hempty (String.isEmpty_iff.mpr he)⟩

theorem typeErrors_eq_nil_iff (hs : schema.Regular) (typeName : String) (attrs : Option Fields)
    (hasContent : Bool) :
    typeErrors schema typeName attrs hasContent = [] ↔
      ∃ decl ∈ schema.nodes, decl.type.name = typeName ∧ Gives decl.type.attrs attrs ∧
        (decl.type.isLeaf = true → hasContent = false) := by
  unfold typeErrors
  cases htype : schema.nodeType? typeName with
  | none =>
    refine iff_of_false (List.cons_ne_nil _ _) fun ⟨decl, hdecl, hname, _⟩ => ?_
    rw [← hname, hs.nodeType?_eq hdecl] at htype
    cases htype
  | some type =>
    dsimp only
    have hleaf : (if (type.isLeaf && hasContent) = true then
        [Error.invalidDocument (.leafWithContent typeName)] else []) = [] ↔
          (type.isLeaf = true → hasContent = false) := by
      cases type.isLeaf <;> cases hasContent <;> simp
    rw [List.append_eq_nil_iff, missingAttributes_eq_nil_iff, hleaf]
    constructor
    · intro hright
      obtain ⟨⟨decl, hdecl, rfl⟩, hname⟩ := Schema.exists_decl_of_nodeType? htype
      exact ⟨decl, hdecl, hname, hright⟩
    · rintro ⟨decl, hdecl, hname, hright⟩
      rw [← hname, hs.nodeType?_eq hdecl] at htype
      cases htype
      exact hright

/-- A node on its own conforms, and so does all that is below it. -/
theorem NodeForm.forall_inside_iff {p : NodeForm → Prop} {form : NodeForm} :
    (∀ x : NodeForm, x.Inside form → p x) ↔
      p form ∧ ∀ child ∈ form.content, ∀ x : NodeForm, x.Inside child → p x := by
  constructor
  · exact fun h => ⟨h form (.self form), fun child hc x hx => h x (.content hc hx)⟩
  · rintro ⟨hself, hcontent⟩ x hx
    cases hx with
    | self => exact hself
    | content hc hx => exact hcontent _ hc x hx

/-- Nothing is wrong with a node on its own. -/
theorem NodeForm.obeys_iff (hs : schema.Regular) (form : NodeForm) :
    form.Obeys schema ↔ (∀ mark ∈ form.marks, mark.errors schema = []) ∧
      if form.typeName = textTypeName then textErrors form.content form.text = []
      else form.text = none ∧
        typeErrors schema form.typeName form.attrs (!form.content.isEmpty) = [] := by
  have hmarks : (∀ mark ∈ form.marks, mark.errors schema = []) ↔
      ∀ mark ∈ form.marks, mark.Obeys schema :=
    forall₂_congr fun mark _ => mark.errors_eq_nil_iff hs
  have hcontent : ((!form.content.isEmpty) = false) ↔ form.content = [] := by
    rw [Bool.not_eq_false', List.isEmpty_iff]
  rw [hmarks]
  split
  · rename_i htext
    rw [textErrors_eq_nil_iff]
    exact ⟨fun h => ⟨h.marks, h.text htext⟩,
      fun h => ⟨h.1, fun _ => h.2, fun hne => absurd htext hne⟩⟩
  · rename_i htext
    rw [typeErrors_eq_nil_iff hs, hcontent]
    exact ⟨fun h => ⟨h.marks, h.other htext⟩,
      fun h => ⟨h.1, fun he => absurd he htext, fun _ => h.2⟩⟩

mutual

/-- Nothing is wrong with a form exactly if every node of it conforms. The errors of a text node
leave out the forms below it, but a text node without errors has none. -/
theorem NodeForm.errors_eq_nil_iff (hs : schema.Regular) : (form : NodeForm) →
    (form.errors schema = [] ↔ ∀ x : NodeForm, x.Inside form → x.Obeys schema)
  | ⟨typeName, attrs, content, marks, text⟩ => by
    rw [NodeForm.forall_inside_iff, NodeForm.obeys_iff hs, ← contentErrors_eq_nil_iff hs content,
      NodeForm.errors, List.append_eq_nil_iff, List.flatMap_eq_nil_iff]
    by_cases htext : typeName = textTypeName
    · rw [if_pos htext, if_pos htext]
      refine (and_iff_left_of_imp fun h => ?_).symm
      rw [((textErrors_eq_nil_iff content text).mp h.2).1, contentErrors]
    · rw [if_neg htext, if_neg htext, List.append_eq_nil_iff, List.append_eq_nil_iff, and_assoc,
        and_assoc, and_comm (a := contentErrors schema content = [])]
      refine and_congr_right fun _ => and_congr_left fun _ => ?_
      cases text with
      | none => exact iff_of_true rfl rfl
      | some text => exact iff_of_false (List.cons_ne_nil _ _) nofun

theorem contentErrors_eq_nil_iff (hs : schema.Regular) : (forms : List NodeForm) →
    (contentErrors schema forms = [] ↔
      ∀ form ∈ forms, ∀ x : NodeForm, x.Inside form → x.Obeys schema)
  | [] => by
    rw [contentErrors]
    exact iff_of_true rfl (List.forall_mem_nil _)
  | form :: rest => by
    rw [contentErrors, List.append_eq_nil_iff, NodeForm.errors_eq_nil_iff hs form,
      contentErrors_eq_nil_iff hs rest, List.forall_mem_cons]

end

/-! ### Resolving -/

namespace Schema

open Making

theorem make_settles (fields : Fields) :
    Settles (Attrs.make fields) [] fun attrs => attrs.fields = fields where
  ok hrun := by
    cases hrun
    exact ⟨rfl, rfl⟩
  error hrun := nomatch hrun

/-- The attribute map of a new node or mark has the declared attributes. -/
theorem resolveAttrs_settles (typeName : String) (decls : List AttrDecl) (given : Option Fields) :
    Settles (resolveAttrs typeName decls given) (missingAttributes typeName decls given)
      fun attrs => Resolves decls given attrs.fields := by
  unfold resolveAttrs
  rcases resolveFields_cases typeName given decls with
    ⟨fields, hok, hnone, hfields⟩ | ⟨error, herror, hfirst⟩
  · rw [hok, hnone]
    refine ⟨fun hrun => ?_, nofun⟩
    obtain ⟨-, rfl⟩ := (make_settles fields).ok hrun
    exact ⟨rfl, hfields⟩
  · rw [herror]
    refine ⟨nofun, fun hrun => ?_⟩
    cases hrun
    exact hfirst

theorem mark_settles (form : MarkForm) :
    Settles (schema.mark form.typeName form.attrs) (form.errors schema)
      (form.MirroredBy schema) := by
  unfold Schema.mark MarkForm.errors
  cases htype : schema.markType? form.typeName with
  | none => exact .throw _
  | some type =>
    obtain ⟨decl, hdecl, rfl⟩ := Option.map_eq_some_iff.mp htype
    have hname := List.find?_some hdecl
    refine (resolveAttrs_settles form.typeName decl.type.attrs form.attrs).map
      fun attrs hattrs => ?_
    exact ⟨⟨decl, List.mem_of_find?_eq_some hdecl, rfl⟩, beq_iff_eq.mp hname, hattrs⟩

theorem resolveMarks_settles (forms : List MarkForm) :
    Settles (schema.resolveMarks forms) (forms.flatMap (MarkForm.errors schema))
      (List.Forall₂ (MarkForm.MirroredBy schema) forms) := by
  induction forms with
  | nil => exact .pure .nil
  | cons form rest ih =>
    rw [resolveMarks, List.flatMap_cons]
    exact (mark_settles form).bind fun mark hmark => ih.map fun marks hmarks => .cons hmark hmarks

/-- The set of marks that mirror forms is normal. -/
theorem normalizes_of_mirrored (hs : schema.Regular) {forms : List MarkForm} {marks : List Mark}
    (h : List.Forall₂ (MarkForm.MirroredBy schema) forms marks) :
    Mark.Normalizes marks (Mark.setOf marks) := by
  refine Mark.setOf_normalizes hs.marks ?_
  induction h with
  | nil => exact List.forall_mem_nil _
  | cons hfirst _ ih => exact List.forall_mem_cons.mpr ⟨hfirst.decl, ih⟩

/-- A text node is made of a text, without content. -/
theorem resolveText_settles (hs : schema.Regular) {attrs : Option Fields}
    {content : List NodeForm} {forms : List MarkForm} {text : Option String} {marks : List Mark}
    (hmarks : List.Forall₂ (MarkForm.MirroredBy schema) forms marks) :
    Settles (schema.resolveText content text marks) (textErrors content text)
      (NodeForm.MirroredBy schema ⟨textTypeName, attrs, content, forms, text⟩) := by
  unfold resolveText textErrors
  refine .check (.throw_bind _) fun hcontent => ?_
  have hnil : content = [] := by
    cases content with
    | nil => rfl
    | cons form rest => exact absurd rfl hcontent
  subst hnil
  cases text with
  | none => exact .throw _
  | some text =>
    show Settles (schema.text text marks) _ _
    unfold Schema.text
    dsimp only
    by_cases hempty : text.isEmpty = true
    · rw [if_pos hempty, if_pos hempty]
      exact .throw _
    · obtain ⟨type, htype, hattrs⟩ := hs.text
      obtain ⟨hdecl, hname⟩ := exists_decl_of_nodeType? htype
      rw [if_neg hempty, if_neg hempty, htype]
      refine (make_settles []).map fun fields hfields => .intro ?_ .nil
      have hresolves : Resolves type.attrs attrs fields.fields := by
        rw [hattrs, hfields]
        exact ⟨rfl, fun _ => rfl⟩
      exact ⟨hdecl, hname, hresolves, ⟨marks, hmarks, rfl, normalizes_of_mirrored hs hmarks⟩, rfl,
        iff_of_true rfl hname⟩

/-- A node of another type is made of its content. Its type was found by its name, so the check for
the text type is never met. -/
theorem node_settles (hs : schema.Regular) {typeName : String} (htext : typeName ≠ textTypeName)
    {attrs : Option Fields} {forms : List NodeForm} {content : Fragment}
    (hcontent : List.Forall₂ (NodeForm.MirroredBy schema) forms content)
    {markForms : List MarkForm} {marks : List Mark}
    (hmarks : List.Forall₂ (MarkForm.MirroredBy schema) markForms marks) :
    Settles (schema.node typeName attrs content marks)
      (typeErrors schema typeName attrs (!forms.isEmpty))
      (NodeForm.MirroredBy schema ⟨typeName, attrs, forms, markForms, none⟩) := by
  have hempty : forms.isEmpty = content.isEmpty := by cases hcontent <;> rfl
  unfold Schema.node typeErrors
  cases htype : schema.nodeType? typeName with
  | none => exact .throw _
  | some type =>
    obtain ⟨hdecl, hname⟩ := exists_decl_of_nodeType? htype
    have hother : type.isText ≠ true := fun he => htext (hname ▸ beq_iff_eq.mp he)
    dsimp only
    rw [if_neg hother, hempty]
    refine (resolveAttrs_settles typeName type.attrs attrs).bind fun fields hfields => ?_
    by_cases hleaf : (type.isLeaf && !content.isEmpty) = true
    · rw [if_pos hleaf, if_pos hleaf]
      exact .throw_bind _
    · rw [if_neg hleaf, if_neg hleaf]
      refine .pure (.intro ?_ hcontent)
      exact ⟨hdecl, hname, hfields, ⟨marks, hmarks, rfl, normalizes_of_mirrored hs hmarks⟩, rfl,
        iff_of_false Bool.false_ne_true fun he => htext (hname.symm.trans he)⟩

mutual

theorem resolveNode_settles (hs : schema.Regular) : (form : NodeForm) →
    Settles (schema.resolveNode form) (form.errors schema) (form.MirroredBy schema)
  | ⟨typeName, attrs, content, marks, text⟩ => by
    rw [resolveNode, NodeForm.errors]
    refine (resolveMarks_settles marks).bind fun marks hmarks => ?_
    split
    · rename_i htext
      subst htext
      exact resolveText_settles hs hmarks
    · rename_i htext
      refine .check (.throw _) fun hnone => ?_
      rw [Option.not_isSome_iff_eq_none] at hnone
      subst hnone
      exact (resolveNodes_settles hs content).bind fun nodes hnodes =>
        node_settles hs htext hnodes hmarks

theorem resolveNodes_settles (hs : schema.Regular) : (forms : List NodeForm) →
    Settles (schema.resolveNodes forms) (contentErrors schema forms)
      (List.Forall₂ (NodeForm.MirroredBy schema) forms)
  | [] => by
    rw [resolveNodes, contentErrors]
    exact .pure .nil
  | form :: rest => by
    rw [resolveNodes, contentErrors]
    exact (resolveNode_settles hs form).bind fun node hnode =>
      (resolveNodes_settles hs rest).map fun nodes hnodes => .cons hnode hnodes

end

/-- With a schema of any declarations, a form becomes a node exactly if every node of the form
conforms, and then the node mirrors it: in shape and types, with the declared attributes and with
the sets of its marks. When it does not become a node, the error is the first that is wrong with the
form. -/
theorem resolveNode_mirrors {nodes : List NodeDecl} {marks : List MarkDecl} {schema : Schema}
    (h : ofDecls nodes marks = .ok schema) (form : NodeForm) (s : Nat) :
    ((∃ node t, schema.resolveNode form s = (.ok node, t)) ↔
      ∀ x : NodeForm, x.Inside form → x.Obeys schema) ∧
    (∀ node t, schema.resolveNode form s = (.ok node, t) → form.MirroredBy schema node) ∧
    ∀ error t, schema.resolveNode form s = (.error error, t) →
      (form.errors schema).head? = some error := by
  have hs := regular_of_ofDecls h
  have hform := resolveNode_settles hs form
  refine ⟨?_, fun node t hrun => (hform.ok hrun).2, fun error t hrun => hform.error hrun⟩
  rw [← NodeForm.errors_eq_nil_iff hs]
  constructor
  · rintro ⟨node, t, hrun⟩
    exact (hform.ok hrun).1
  · intro hnone
    rcases hrun : schema.resolveNode form s with ⟨error | node, t⟩
    · have hfirst := hform.error hrun
      rw [hnone] at hfirst
      cases hfirst
    · exact ⟨node, t, rfl⟩

/-- A type with an attribute that is declared twice, and a text type with a content expression. -/
def sampleDecls : List NodeDecl :=
  [⟨⟨"note", some "text*", none, false,
      [⟨"level", some (.num (.int 1))⟩, ⟨"align", none⟩, ⟨"level", some (.num (.int 2))⟩]⟩, none⟩,
    ⟨⟨textTypeName, some "text*", none, true, []⟩, none⟩]

/-- A note around a text with two marks of one type. -/
def sampleForm : NodeForm :=
  ⟨"note", some [("other", .null), ("align", .str "left")],
    [⟨textTypeName, none, [],
      [⟨"link", some [("href", .str "a")]⟩, ⟨"link", some [("href", .str "b")]⟩], some "x"⟩],
    [], none⟩

/-- The level is not given and takes the default of its last declaration, at the place of its first
one. What is not declared is gone, and of two marks of one type the last is left. -/
theorem resolveNode_mirrors_sample :
    let marks : List MarkDecl := [⟨⟨"link", 0, true, [⟨"href", none⟩]⟩, none⟩]
    let schema : Schema := ⟨sampleDecls, marks⟩
    ofDecls sampleDecls marks = .ok schema ∧
      (∀ x : NodeForm, x.Inside sampleForm → x.Obeys schema) ∧
      ∃ node t, schema.resolveNode sampleForm 0 = (.ok node, t) ∧
        sampleForm.MirroredBy schema node ∧
        node.attrs.fields = [("level", .num (.int 2)), ("align", .str "left")] ∧
        node.content.map (fun child => child.marks.map fun mark => mark.attrs.fields) =
          [[[("href", .str "b")]]] := by
  intro marks schema
  have hschema : ofDecls sampleDecls marks = .ok schema := rfl
  obtain ⟨hiff, hmirrors, -⟩ := resolveNode_mirrors hschema sampleForm 0
  exact ⟨hschema, hiff.mp ⟨_, _, rfl⟩, _, _, rfl, hmirrors _ _ rfl, rfl, rfl⟩

end Schema

end

end RichDoc
