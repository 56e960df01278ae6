import RichDoc.Proofs.Dom.Runs
import RichDoc.Proofs.Json.Written
import RichDoc.Proofs.Template.Language

/-!
# What a description denotes

The outline that a description denotes can be read off it without building anything: the texts of
its attributes from the grammar of JSON, and a JSON description from its arrays. A rendered
description is a new tree with this outline, in which the hole is the node that was made for the
element with the hole.
-/

namespace RichDoc

/-! ### Attributes -/

/-- The text that an attribute value denotes: a string denotes itself, null the empty text, and any
other value its JSON text. -/
def Json.shown : Json → String
  | .str text => text
  | .null => ""
  | value => String.ofList value.written

/-- Attribute values are set as the texts that they denote. -/
theorem attributeText_eq (value : Json) : attributeText value = value.shown := by
  cases value with
  | null | str => rfl
  | bool | num | arr | obj =>
    exact String.ofList_toList.symm.trans (congrArg String.ofList (Json.toList_print _))

/-- The attributes of an element that is described: those with a name, as texts. -/
def shownAttributes (attrs : List (String × Json)) : List Attribute :=
  Attribute.settled ((attrs.filter fun a => a.1 ≠ "").map fun a => ⟨.html a.1, a.2.shown⟩)

/-! ### Outlines of descriptions -/

/-- Whether an item of a JSON element marks the hole. -/
def Json.isHole : Json → Bool
  | .num (.int 0) => true
  | _ => false

mutual

/-- The outline that a JSON description denotes: a string is a text, and an array is an element.
Nothing is meant by a value that describes no tree. -/
def Json.outline : Json → Outline
  | .str text => .node (.text text) false []
  | .arr (.str tag :: .obj attrs :: items) =>
    .node (.element (.html tag) (shownAttributes attrs)) (items.any Json.isHole)
      (Json.outlines items)
  | .arr (.str tag :: items) =>
    .node (.element (.html tag) []) (items.any Json.isHole) (Json.outlines items)
  | _ => .node (.text "") false []

/-- The outlines that the items of a JSON element denote. -/
def Json.outlines : List Json → List Outline
  | [] => []
  | item :: rest =>
    if item.isHole then Json.outlines rest else Json.outline item :: Json.outlines rest

end

mutual

/-- The outline that a description denotes. -/
def Spec.outline : Spec → Outline
  | .text text => .node (.text text) false []
  | .tree sub => sub.tree.copied none
  | .treeWithHole sub hole => sub.tree.copied hole
  | .element tag attrs children =>
    .node (.element (.html tag) (shownAttributes attrs)) (children.any SpecChild.isHole)
      (SpecChild.outlines children)
  | .json value _ => value.outline

/-- The outlines that children denote. -/
def SpecChild.outlines : List SpecChild → List Outline
  | [] => []
  | .hole :: rest => SpecChild.outlines rest
  | .spec spec :: rest => Spec.outline spec :: SpecChild.outlines rest

end

/-! ### JSON descriptions denote what the typed ones denote -/

theorem Json.outline_array (tag : String) (items : List Json) :
    Json.outline (.arr (.str tag :: items)) =
      .node (.element (.html tag) (shownAttributes (arrayParts items).1))
        ((arrayParts items).2.2.any Json.isHole) (Json.outlines (arrayParts items).2.2) := by
  unfold arrayParts
  split
  · rw [Json.outline]
  · rw [Json.outline]
    · rfl
    · assumption

/-- The items that mark the hole are the number zero. -/
theorem Json.isHole_iff {item : Json} : item.isHole = true ↔ itemKind item = .hole := by
  rw [itemKind_eq_hole]
  unfold Json.isHole
  split
  · exact iff_of_true rfl rfl
  · rename_i hne
    exact iff_of_false Bool.false_ne_true hne

/-- The items that mark the hole become the children that do. -/
theorem Json.any_isHole_toChildren (items : List Json) :
    (Json.toChildren items).any SpecChild.isHole = items.any Json.isHole := by
  induction items with
  | nil => rfl
  | cons item rest ih =>
    rw [Json.toChildren_cons, List.any_cons, List.any_cons, ih]
    congr 1
    cases hkind : itemKind item with
    | hole => exact (Json.isHole_iff.mpr hkind).symm
    | template | other =>
      refine (Bool.eq_false_iff.mpr fun h => ?_).symm
      rw [Json.isHole_iff, hkind] at h
      cases h

mutual

/-- A JSON description denotes the outline of the typed one for which it stands. -/
theorem Json.outline_toSpec (value : Json) : value.toSpec.outline = value.outline := by
  match value with
  | .arr (.str tag :: items) =>
    rw [Json.toSpec_array, Json.outline_array, Spec.outline, Json.any_isHole_toChildren,
      Json.outlines_toChildren (arrayParts items).2.2]
  | .str _ | .null | .bool _ | .num _ | .obj _ | .arr [] | .arr (.null :: _) | .arr (.bool _ :: _)
  | .arr (.num _ :: _) | .arr (.arr _ :: _) | .arr (.obj _ :: _) =>
    rfl
termination_by sizeOf value
decreasing_by
  have := sizeOf_arrayParts items
  simp only [Json.arr.sizeOf_spec, List.cons.sizeOf_spec]
  omega

theorem Json.outlines_toChildren (items : List Json) :
    SpecChild.outlines (Json.toChildren items) = Json.outlines items := by
  match items with
  | [] => rfl
  | item :: rest =>
    rw [Json.toChildren_cons, Json.outlines]
    by_cases h : itemKind item = .hole
    · rw [if_pos (Json.isHole_iff.mpr h), h]
      dsimp only
      rw [SpecChild.outlines, Json.outlines_toChildren rest]
    · rw [if_neg fun hhole => h (Json.isHole_iff.mp hhole)]
      split
      · exact absurd ‹_› h
      · rw [SpecChild.outlines, Json.outline_toSpec item, Json.outlines_toChildren rest]
termination_by sizeOf items

end

/-- The children that are holes stay holes. -/
theorem SpecChild.any_isHole_typedAll (children : List SpecChild) :
    (SpecChild.typedAll children).any SpecChild.isHole = children.any SpecChild.isHole := by
  induction children with
  | nil => rfl
  | cons child rest ih =>
    cases child with
    | hole => rw [SpecChild.typedAll, List.any_cons, List.any_cons, ih]
    | spec _ =>
      rw [SpecChild.typedAll, List.any_cons, List.any_cons, ih]
      rfl

mutual

/-- A description denotes the outline of its typed form. -/
theorem Spec.outline_typed : (spec : Spec) → spec.typed.outline = spec.outline
  | .text _ | .tree _ | .treeWithHole _ _ => rfl
  | .element tag attrs children => by
    rw [Spec.typed, Spec.outline, Spec.outline, SpecChild.outlines_typedAll children,
      SpecChild.any_isHole_typedAll children]
  | .json value _ => by rw [Spec.typed, Spec.outline, Json.outline_toSpec]

theorem SpecChild.outlines_typedAll : (children : List SpecChild) →
    SpecChild.outlines (SpecChild.typedAll children) = SpecChild.outlines children
  | [] => rfl
  | .hole :: rest => by
    rw [SpecChild.typedAll, SpecChild.outlines, SpecChild.outlines,
      SpecChild.outlines_typedAll rest]
  | .spec spec :: rest => by
    rw [SpecChild.typedAll, SpecChild.outlines, SpecChild.outlines, Spec.outline_typed spec,
      SpecChild.outlines_typedAll rest]

end

namespace Dom

/-! ### Rendering into a store -/

variable {s t : Dom} {node : NodeId}

/-- Attributes with a name are set on a new element. -/
theorem Makes.setAttributes {name : QualName} {before : List Attribute}
    (attrs : List (String × Json))
    (h : Makes s t ⟨node, none⟩ (.node (.element name (Attribute.settled before)) false []))
    {u : Dom} (hset : setAttributes node attrs t = (.ok (), u)) :
    Makes s u ⟨node, none⟩
      (.node (.element name (Attribute.settled
        (before ++ (attrs.filter fun a => a.1 ≠ "").map
          fun a => ⟨.html a.1, a.2.shown⟩))) false []) := by
  induction attrs generalizing t before with
  | nil =>
    cases hset
    rw [List.filter_nil, List.map_nil, List.append_nil]
    exact h
  | cons attr rest ih =>
    obtain ⟨key, value⟩ := attr
    rw [RichDoc.setAttributes] at hset
    by_cases hempty : key = ""
    · rw [if_pos (String.isEmpty_iff.mpr hempty)] at hset
      rw [List.filter_cons_of_neg (by simpa using hempty)]
      exact ih h hset
    · rw [if_neg fun h => hempty (String.isEmpty_iff.mp h)] at hset
      split at hset
      · rw [attributeText_eq, Building.bind_apply_ok (Building.modify_apply _ _)] at hset
        have hnext := ih (h.setAttribute_settled key value.shown) hset
        rw [List.append_assoc, List.singleton_append] at hnext
        rw [List.filter_cons_of_pos (by simpa using hempty), List.map_cons]
        exact hnext
      · cases hset

/-- A new element with its attributes. -/
theorem makes_element {tag : String} {attrs : List (String × Json)} (hs : s.WellFormed)
    (hset : setAttributes (TreeBuilder.createElement s tag).1 attrs
      (TreeBuilder.createElement s tag).2 = (.ok (), t)) :
    Makes s t ⟨s.size, none⟩
      (.node (.element (.html tag) (shownAttributes attrs)) false []) := by
  have hnew : Makes s (s.create (.element (.html tag) [])).2 ⟨s.size, none⟩
      (.node (.element (.html tag) (Attribute.settled [])) false []) := makes_create hs _
  exact hnew.setAttributes attrs hset

theorem renderTree_makes {sub : Subtree} (hp : sub.Plain) (hs : s.WellFormed)
    {hole : Option Link} {rendered : Rendered NodeId}
    (h : renderTree sub hole s = (.ok rendered, t)) :
    Makes s t rendered (sub.tree.copied hole) := by
  rw [renderTree_apply] at h
  cases h
  exact graft_makes hole sub.tree (hp.wellFormed.nodup_links sub.root) hs

mutual

/-- A rendered description has the outline that it denotes. -/
theorem renderSpec_makes {blocked : List Suspicious} : (spec : Spec) →
    (∀ part ∈ spec.parts, part.Regular) → {s t : Dom} → {rendered : Rendered NodeId} →
    s.WellFormed → renderSpec blocked spec s = (.ok rendered, t) →
    Makes s t rendered spec.outline
  | .text text, _, _, _, _, hs, h => by
    rw [renderSpec] at h
    cases h
    rw [Spec.outline]
    exact makes_create hs (.text text)
  | .tree sub, hr, _, _, _, hs, h => by
    rw [renderSpec] at h
    rw [Spec.outline]
    exact renderTree_makes (hr _ (List.mem_singleton.mpr rfl)) hs h
  | .treeWithHole sub none, hr, _, _, _, hs, h => by
    rw [renderSpec] at h
    rw [Spec.outline]
    exact renderTree_makes (hr _ (List.mem_singleton.mpr rfl)) hs h
  | .treeWithHole sub (some hole), hr, _, _, _, hs, h => by
    rw [renderSpec] at h
    rw [Spec.outline]
    split at h
    · exact renderTree_makes (hr _ (List.mem_singleton.mpr rfl)) hs h
    · cases h
  | .element tag attrs children, hr, s, _, rendered, hs, h => by
    rw [Spec.parts, List.forall_mem_cons] at hr
    rw [renderSpec_element, buildElement_eq_ok] at h
    obtain ⟨-, -, u, hattrs, h⟩ := h
    have hnew := makes_element hs hattrs
    rw [Spec.outline]
    by_cases hmem : .hole ∈ children
    · obtain rfl := eq_hole_of_length hmem (alone_of_renderChildren h hmem)
      rw [renderChildren] at h
      cases h
      rw [SpecChild.outlines, SpecChild.outlines]
      exact hnew.of_fills_here (.nil _ hnew.grows.after)
    · have hnone : children.any SpecChild.isHole = false := by
        rw [List.any_eq_false]
        intro child hchild
        cases child with
        | hole => exact absurd hchild hmem
        | spec spec => exact Bool.false_ne_true
      obtain ⟨hroot, hole, hfills, hhole, -⟩ :=
        renderChildren_fills children hmem hr.2 hnew.grows.after hnew.root_new.2 h
      obtain ⟨root, taken⟩ := rendered
      obtain rfl : root = s.size := hroot
      obtain rfl : taken = hole := hhole.trans (Option.or_none ..)
      rw [hnone]
      exact hnew.of_fills hfills
  | .json value origin, hr, _, _, _, _, _ => (hr _ (List.mem_singleton.mpr rfl)).elim

/-- The rendered children fill their parent. -/
theorem renderChildren_fills {blocked : List Suspicious} {node : NodeId} {alone : Bool}
    {hole : Option NodeId} : (children : List SpecChild) → .hole ∉ children →
    (∀ part ∈ SpecChild.partsOf children, part.Regular) → {s t : Dom} →
    {rendered : Rendered NodeId} → s.WellFormed → node < s.size →
    renderChildren blocked node alone hole children s = (.ok rendered, t) →
    rendered.root = node ∧ ∃ inner, Fills node s t inner (SpecChild.outlines children) ∧
      rendered.hole = inner.or hole ∧ (inner = none ∨ hole = none)
  | [], _, _, _, _, _, hs, _, h => by
    rw [renderChildren] at h
    cases h
    rw [SpecChild.outlines]
    exact ⟨rfl, none, .nil node hs, rfl, Or.inl rfl⟩
  | .hole :: _, hmem, _, _, _, _, _, _, _ => absurd (List.mem_cons_self ..) hmem
  | .spec spec :: rest, hmem, hr, _, _, _, hs, hnode, h => by
    rw [SpecChild.partsOf, List.forall_mem_append] at hr
    rw [renderChildren, Building.bind_eq_ok] at h
    obtain ⟨child, u, hchild, h⟩ := h
    rw [Building.bind_eq_ok] at h
    obtain ⟨taken, v, hadopt, h⟩ := h
    obtain ⟨hone, rfl, rfl⟩ := adopt_eq_ok.mp hadopt
    have hhang := (renderSpec_makes spec hr.1 hs hchild).hang hnode
    obtain ⟨hroot, inner, hfills, hhole, hinner⟩ :=
      renderChildren_fills rest (fun h => hmem (List.mem_cons_of_mem _ h)) hr.2 hhang.grows.after
        (Nat.lt_of_lt_of_le hnode hhang.grows.size_le) h
    rw [Option.or_eq_none_iff] at hinner
    rw [SpecChild.outlines]
    refine ⟨hroot, inner.or child.hole, hhang.append hfills ?_, ?_, ?_⟩
    · exact hinner.symm.imp_left And.left
    · rw [hhole, Option.or_assoc]
    · rcases hone with hone | hone
      · rw [hone, Option.or_none]
        exact hinner.imp_right And.right
      · exact Or.inr hone

end

/-- A description that is rendered into a store becomes a new tree with the outline that the
description denotes. -/
theorem render_makes {spec : Spec} (hp : spec.TreesPlain) {s t : Dom}
    {rendered : Rendered NodeId} (hs : s.WellFormed) (h : spec.render s = (.ok rendered, t)) :
    Makes s t rendered spec.outline := by
  have hjson := isTemplate_of_renderSpec spec h
  rw [Spec.render, renderSpec_typed spec hjson] at h
  rw [← Spec.outline_typed]
  exact renderSpec_makes spec.typed (Spec.regular_typed spec hp) hs h

end Dom

/-- Rendering accepts exactly the language of templates, whatever is built. A rendered description
has a hole if its description has one. In a store it is a new tree, of the outline that the
description denotes and with its hole in the place of the described one. -/
theorem render_denotes {spec : Spec} (hp : spec.TreesPlain) :
    (∀ {σ η : Type} [TreeBuilder σ η] (s : σ),
        ((∃ (rendered : Rendered η) (t : σ), spec.render s = (.ok rendered, t)) ↔
          spec.InLanguage) ∧
        ∀ (rendered : Rendered η) (t : σ), spec.render s = (.ok rendered, t) →
          (rendered.hole.isSome = true ↔ spec.typed.holes = 1)) ∧
      ∀ (s t : Dom) (rendered : Rendered NodeId), s.WellFormed →
        spec.render s = (.ok rendered, t) → Dom.Makes s t rendered spec.outline :=
  ⟨fun s => ⟨render_isOk_iff hp s, fun _ _ h => render_hole hp h⟩,
    fun _ _ _ hs h => Dom.render_makes hp hs h⟩

/-- A store with one element besides the document. -/
def sampleSubtree : Subtree := ⟨(Dom.empty.create (.element (.html "b") [])).2, some 1⟩

/-- A list with attributes of each kind of value, of an item in JSON, with an empty text, and of a
tree that takes the content. -/
def sampleSpec : Spec :=
  .element "ul"
    [("", .null), ("id", .str "x"), ("title", .null), ("start", .num (.int (-3))),
      ("ratio", .num (.float ⟨false, 0x18000000000000, -52⟩)), ("open", .bool true),
      ("data", .arr [.num (.int 1), .str "a\"\n", .null]), ("meta", .obj [("k", .bool false)])]
    [.spec (.json (.arr [.str "li", .obj [("value", .num (.int 7))], .str ""]) none),
      .spec (.treeWithHole sampleSubtree (some (some 1)))]

/-- What the list denotes. -/
def sampleOutline : Outline :=
  .node
    (.element (.html "ul")
      [⟨.html "id", "x"⟩, ⟨.html "title", ""⟩, ⟨.html "start", "-3"⟩, ⟨.html "ratio", "1.5"⟩,
        ⟨.html "open", "true"⟩, ⟨.html "data", "[1,\"a\\\"\\n\",null]"⟩,
        ⟨.html "meta", "\x7b\"k\":false\x7d"⟩])
    false
    [.node (.element (.html "li") [⟨.html "value", "7"⟩]) false [.node (.text "") false []],
      .node (.element (.html "b") []) true []]

/-- The list is a template with one hole, and in a store it becomes what it denotes. -/
theorem render_denotes_sample :
    sampleSpec.InLanguage ∧ ∃ t rendered, sampleSpec.render Dom.empty = (.ok rendered, t) ∧
      rendered.hole.isSome = true ∧ Dom.Makes Dom.empty t rendered sampleOutline := by
  have htree : sampleSubtree.tree = .node 1 (.element (.html "b") []) [] := rfl
  have hplain : sampleSubtree.Plain := by
    refine ⟨(Dom.makes_create Dom.wellFormed_empty _).grows.after, ?_⟩
    rw [htree]
    exact ⟨fun h => (nomatch h), trivial⟩
  have hp : sampleSpec.TreesPlain := by
    intro part hpart sub hsub
    simp only [sampleSpec, Spec.parts, SpecChild.partsOf, List.mem_cons, List.mem_append,
      List.not_mem_nil, or_false] at hpart
    rcases hpart with rfl | rfl | rfl
    · cases hsub
    · cases hsub
    · cases hsub
      exact hplain
  obtain ⟨haccepts, hdenotes⟩ := render_denotes hp
  have hrun : sampleSpec.render Dom.empty = (.ok ⟨1, some 4⟩,
      ((sampleSpec.render Dom.empty : Except Error (Rendered NodeId) × Dom)).2) := Prod.ext rfl rfl
  have houtline : sampleSpec.outline = sampleOutline := rfl
  exact ⟨(haccepts Dom.empty).1.mp ⟨_, _, hrun⟩, _, _, hrun, rfl,
    houtline ▸ hdenotes _ _ _ Dom.wellFormed_empty hrun⟩

end RichDoc
