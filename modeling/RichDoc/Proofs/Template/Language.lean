import RichDoc.Proofs.Build.Grafting
import RichDoc.Proofs.Template.Typed
import Mathlib.Algebra.GroupWithZero.Nat

/-!
# The language of templates

The rules for descriptions are checked one at a time, where the description that breaks one is
rendered, and holes are counted level by level. Together these checks accept exactly the
descriptions that follow the rules everywhere and have one hole at most.
-/

namespace RichDoc

/-! ### The rules -/

/-- Whether a child is the place for the content. -/
def SpecChild.isHole : SpecChild → Bool
  | .hole => true
  | .spec _ => false

/-- The holes of a description without those of the descriptions inside it. -/
def Spec.ownHoles : Spec → Nat
  | .treeWithHole _ (some _) => 1
  | .element _ _ children => children.countP SpecChild.isHole
  | _ => 0

/-- The holes of a description, at every depth. -/
def Spec.holes (spec : Spec) : Nat := (spec.parts.map Spec.ownHoles).sum

/-- A description follows the rules: those for tags, attribute names and JSON values, those for the
places of holes, and that there is one hole at most. -/
structure Spec.InLanguage (spec : Spec) : Prop where
  tags : ∀ tag attrs children, .element tag attrs children ∈ spec.typed.parts → Html.isTagName tag
  keys : ∀ tag attrs children, .element tag attrs children ∈ spec.typed.parts →
    ∀ attr ∈ attrs, attr.1 = "" ∨ Html.isAttrName attr.1
  json : ∀ value origin, .json value origin ∈ spec.parts → value.IsTemplate
  alone : ∀ tag attrs children, .element tag attrs children ∈ spec.typed.parts →
    .hole ∈ children → children = [.hole]
  inside : ∀ sub hole, .treeWithHole sub (some hole) ∈ spec.typed.parts →
    ∃ id data, hole = some id ∧ (id, data) ∈ sub.tree.nodes ∧ data.name?.isSome
  single : spec.typed.holes ≤ 1

/-- A tree that exists comes from a well-formed store, and its comments have no children. -/
structure Subtree.Plain (sub : Subtree) : Prop where
  wellFormed : sub.dom.WellFormed
  comments : sub.tree.Each NodeData.CommentEmpty

/-- The tree of a description, if it is one that exists. -/
def Spec.tree? : Spec → Option Subtree
  | .tree sub => some sub
  | .treeWithHole sub _ => some sub
  | _ => none

/-- The trees in a description that exist are plain. -/
def Spec.TreesPlain (spec : Spec) : Prop :=
  ∀ part ∈ spec.parts, ∀ sub ∈ part.tree?, sub.Plain

/-! ### Typed descriptions -/

/-- A description by itself is typed, and its tree, if it is one that exists, is plain. -/
def Spec.Regular : Spec → Prop
  | .text _ => True
  | .tree sub => sub.Plain
  | .treeWithHole sub _ => sub.Plain
  | .element _ _ _ => True
  | .json _ _ => False

mutual

theorem Json.regular_toSpec (value : Json) : ∀ part ∈ value.toSpec.parts, part.Regular := by
  match value with
  | .arr (.str tag :: items) =>
    rw [Json.toSpec_array, Spec.parts]
    exact List.forall_mem_cons.mpr ⟨trivial, Json.regular_toChildren (arrayParts items).2.2⟩
  | .str _ | .null | .bool _ | .num _ | .obj _ | .arr [] | .arr (.null :: _) | .arr (.bool _ :: _)
  | .arr (.num _ :: _) | .arr (.arr _ :: _) | .arr (.obj _ :: _) =>
    exact List.forall_mem_singleton.mpr trivial
termination_by sizeOf value
decreasing_by
  have := sizeOf_arrayParts items
  simp only [Json.arr.sizeOf_spec, List.cons.sizeOf_spec]
  omega

theorem Json.regular_toChildren (items : List Json) :
    ∀ part ∈ SpecChild.partsOf (Json.toChildren items), part.Regular := by
  match items with
  | [] =>
    rw [Json.toChildren, SpecChild.partsOf]
    exact List.forall_mem_nil _
  | item :: rest =>
    rw [Json.toChildren_cons]
    split
    · rw [SpecChild.partsOf]
      exact Json.regular_toChildren rest
    · rw [SpecChild.partsOf]
      exact List.forall_mem_append.mpr ⟨Json.regular_toSpec item, Json.regular_toChildren rest⟩
termination_by sizeOf items

end

mutual

/-- What becomes of a description whose trees are plain is regular. -/
theorem Spec.regular_typed : (spec : Spec) → spec.TreesPlain →
    ∀ part ∈ spec.typed.parts, part.Regular
  | .text _, _ => List.forall_mem_singleton.mpr trivial
  | .tree sub, h => List.forall_mem_singleton.mpr (h _ (List.mem_singleton.mpr rfl) sub rfl)
  | .treeWithHole sub _, h =>
    List.forall_mem_singleton.mpr (h _ (List.mem_singleton.mpr rfl) sub rfl)
  | .element tag attrs children, h => by
    rw [Spec.typed, Spec.parts]
    refine List.forall_mem_cons.mpr
      ⟨trivial, SpecChild.regular_typedAll children fun part hmem => ?_⟩
    exact h part (by rw [Spec.parts]; exact List.mem_cons_of_mem _ hmem)
  | .json value _, _ => by
    rw [Spec.typed]
    exact Json.regular_toSpec value

theorem SpecChild.regular_typedAll : (children : List SpecChild) →
    (∀ part ∈ SpecChild.partsOf children, ∀ sub ∈ part.tree?, sub.Plain) →
    ∀ part ∈ SpecChild.partsOf (SpecChild.typedAll children), part.Regular
  | [], _ => by
    rw [SpecChild.typedAll, SpecChild.partsOf]
    exact List.forall_mem_nil _
  | .hole :: rest, h => by
    rw [SpecChild.partsOf] at h
    rw [SpecChild.typedAll, SpecChild.partsOf]
    exact SpecChild.regular_typedAll rest h
  | .spec spec :: rest, h => by
    rw [SpecChild.partsOf, List.forall_mem_append] at h
    rw [SpecChild.typedAll, SpecChild.partsOf]
    exact List.forall_mem_append.mpr
      ⟨Spec.regular_typed spec h.1, SpecChild.regular_typedAll rest h.2⟩

end

/-- The rules that a description by itself follows. -/
def Spec.Sound : Spec → Prop
  | .treeWithHole sub (some hole) =>
    ∃ id data, hole = some id ∧ (id, data) ∈ sub.tree.nodes ∧ data.name?.isSome
  | .element tag attrs children =>
    Html.isTagName tag = true ∧ (∀ attr ∈ attrs, attr.1 = "" ∨ Html.isAttrName attr.1 = true) ∧
      (.hole ∈ children → children = [.hole])
  | _ => True

/-- A description follows the rules if all typed descriptions in it do, and its JSON values
describe trees, and it has at most one hole. -/
theorem Spec.inLanguage_iff {spec : Spec} :
    spec.InLanguage ↔
      (∀ value origin, .json value origin ∈ spec.parts → value.IsTemplate) ∧
        (∀ part ∈ spec.typed.parts, part.Sound) ∧ spec.typed.holes ≤ 1 := by
  constructor
  · intro h
    refine ⟨h.json, fun part hpart => ?_, h.single⟩
    match part with
    | .text _ | .tree _ | .treeWithHole _ none | .json _ _ => trivial
    | .treeWithHole sub (some hole) => exact h.inside sub hole hpart
    | .element tag attrs children =>
      exact ⟨h.tags tag attrs children hpart, h.keys tag attrs children hpart,
        h.alone tag attrs children hpart⟩
  · rintro ⟨hjson, hsound, hsingle⟩
    exact ⟨fun _ _ _ hpart => (hsound _ hpart).1, fun _ _ _ hpart => (hsound _ hpart).2.1, hjson,
      fun _ _ _ hpart => (hsound _ hpart).2.2, fun _ _ hpart => hsound _ hpart, hsingle⟩

/-! ### Trees that exist -/

/-- A hole that is an element of a tree is one of its nodes. -/
theorem isElementOf_iff {sub : Subtree} (hw : sub.dom.WellFormed) (hole : Link) :
    isElementOf sub hole = true ↔
      ∃ id data, hole = some id ∧ (id, data) ∈ sub.tree.nodes ∧ data.name?.isSome := by
  obtain ⟨hdata, -⟩ := hw.nodes_tree sub.root
  rw [isElementOf, hw.descendants_eq, Bool.and_eq_true, List.any_eq_true]
  constructor
  · rintro ⟨⟨id, hid, he⟩, helement⟩
    obtain rfl := (beq_iff_eq.mp he).symm
    obtain ⟨node, hnode, rfl⟩ := List.mem_map.mp hid
    refine ⟨node.1, node.2, rfl, hnode, ?_⟩
    rw [Dom.isElement, Dom.tag?, hdata _ hnode, Option.bind_some, Option.isSome_map] at helement
    exact helement
  · rintro ⟨id, data, rfl, hnode, hname⟩
    refine ⟨⟨id, List.mem_map_of_mem hnode, beq_self_eq_true _⟩, ?_⟩
    rw [Dom.isElement, Dom.tag?, hdata _ hnode, Option.bind_some, Option.isSome_map]
    exact hname

/-! ### What can be rendered -/

section

variable {σ η : Type} [TreeBuilder σ η]

theorem renderTree_apply (tree : Subtree) (hole : Option Link) (s : σ) :
    (renderTree tree hole : Building σ (Rendered η)) s =
      (.ok ⟨(graft s hole tree.tree).1.1, (graft s hole tree.tree).1.2⟩,
        (graft s hole tree.tree).2) := rfl

/-- A tree that exists brings the hole that is in it. -/
theorem isSome_hole_of_renderTree {sub : Subtree} (hp : sub.Plain) {hole : Link}
    (h : isElementOf sub hole = true) (s : σ) :
    (graft s (some hole) sub.tree).1.2.isSome = true := by
  obtain ⟨id, data, rfl, hnode, hname⟩ := (isElementOf_iff hp.wellFormed hole).mp h
  refine graft_isSome ?_ sub.tree hp.comments hnode s
  cases data with
  | comment text => cases hname
  | _ => rfl

/-- The holes of the descriptions inside children, without the children that are holes. -/
def SpecChild.innerHoles (children : List SpecChild) : Nat :=
  ((SpecChild.partsOf children).map Spec.ownHoles).sum

theorem Spec.holes_element (tag : String) (attrs : List (String × Json))
    (children : List SpecChild) :
    (Spec.element tag attrs children).holes =
      children.countP SpecChild.isHole + SpecChild.innerHoles children := by
  rw [Spec.holes, Spec.parts, List.map_cons, List.sum_cons]
  rfl

theorem SpecChild.innerHoles_spec (spec : Spec) (rest : List SpecChild) :
    SpecChild.innerHoles (.spec spec :: rest) = spec.holes + SpecChild.innerHoles rest := by
  rw [SpecChild.innerHoles, SpecChild.partsOf, List.map_append, List.sum_append]
  rfl

/-- Children without a hole count as none. -/
theorem SpecChild.countP_isHole {children : List SpecChild} (h : .hole ∉ children) :
    children.countP SpecChild.isHole = 0 := by
  rw [List.countP_eq_zero]
  intro child hchild hhole
  cases child with
  | hole => exact h hchild
  | spec spec => cases hhole

/-- A hole among the children is refused unless it is the only child. -/
theorem alone_of_renderChildren {blocked : List Suspicious} {node : η} {alone : Bool}
    {hole : Option η} {children : List SpecChild} {s t : σ} {rendered : Rendered η}
    (h : renderChildren blocked node alone hole children s = (.ok rendered, t))
    (hmem : .hole ∈ children) : alone = true := by
  induction children generalizing hole s with
  | nil => cases hmem
  | cons child rest ih =>
    cases child with
    | hole =>
      rw [renderChildren] at h
      cases alone with
      | false => cases h
      | true => rfl
    | spec spec =>
      rw [renderChildren, Building.bind_eq_ok] at h
      obtain ⟨child, u, -, h⟩ := h
      rw [Building.bind_eq_ok] at h
      obtain ⟨taken, v, -, h⟩ := h
      exact ih h ((List.mem_cons.mp hmem).resolve_left nofun)

/-- A hole that is the only child. -/
theorem eq_hole_of_length {children : List SpecChild} (hmem : .hole ∈ children)
    (hlength : (children.length == 1) = true) : children = [.hole] := by
  obtain ⟨child, rfl⟩ := List.length_eq_one_iff.mp (beq_iff_eq.mp hlength)
  rw [List.mem_singleton] at hmem
  rw [← hmem]

/-- A child is adopted unless there would be two holes. -/
theorem adopt_eq_ok {parent : η} {hole taken : Option η} {child : Rendered η} {s t : σ} :
    adopt parent hole child s = (.ok taken, t) ↔
      (child.hole = none ∨ hole = none) ∧ taken = child.hole.or hole ∧
        t = TreeBuilder.appendChild s parent child.root := by
  rw [adopt_apply]
  by_cases h : child.hole.isSome = true ∧ hole.isSome = true
  · rw [if_pos h]
    refine iff_of_false nofun fun h' => ?_
    rcases h'.1 with hnone | hnone
    · rw [hnone] at h
      cases h.1
    · rw [hnone] at h
      cases h.2
  · rw [if_neg h]
    constructor
    · intro h'
      cases h'
      refine ⟨?_, rfl, rfl⟩
      by_contra hone
      rw [not_or, ← ne_eq, ← ne_eq, Option.ne_none_iff_isSome, Option.ne_none_iff_isSome] at hone
      exact h hone
    · rintro ⟨-, rfl, rfl⟩
      rfl

/-- How many holes there are where one may be. -/
def holeCount (hole : Option η) : Nat := if hole.isSome then 1 else 0

omit [TreeBuilder σ η] in
theorem holeCount_or {first second : Option η} (h : first = none ∨ second = none) :
    holeCount (first.or second) = holeCount first + holeCount second := by
  rcases h with rfl | rfl
  · cases second <;> rfl
  · cases first <;> rfl

mutual

/-- What can be rendered follows the rules, and its hole is reported. -/
theorem sound_of_renderSpec {blocked : List Suspicious} : (spec : Spec) →
    (∀ part ∈ spec.parts, part.Regular) → {s t : σ} → {rendered : Rendered η} →
    renderSpec blocked spec s = (.ok rendered, t) →
    (∀ part ∈ spec.parts, part.Sound) ∧ holeCount rendered.hole = spec.holes
  | .text text, _, _, _, _, h => by
    rw [renderSpec] at h
    cases h
    exact ⟨List.forall_mem_singleton.mpr trivial, rfl⟩
  | .tree sub, _, _, _, _, h => by
    rw [renderSpec, renderTree_apply] at h
    cases h
    rw [graft_none]
    exact ⟨List.forall_mem_singleton.mpr trivial, rfl⟩
  | .treeWithHole sub none, _, _, _, _, h => by
    rw [renderSpec, renderTree_apply] at h
    cases h
    rw [graft_none]
    exact ⟨List.forall_mem_singleton.mpr trivial, rfl⟩
  | .treeWithHole sub (some hole), hr, _, _, _, h => by
    have hp : sub.Plain := hr _ (List.mem_singleton.mpr rfl)
    rw [renderSpec] at h
    split at h
    · rename_i helement
      rw [renderTree_apply] at h
      cases h
      rw [holeCount, if_pos (isSome_hole_of_renderTree hp helement _)]
      exact ⟨List.forall_mem_singleton.mpr ((isElementOf_iff hp.wellFormed hole).mp helement), rfl⟩
    · cases h
  | .element tag attrs children, hr, _, _, _, h => by
    rw [Spec.parts, List.forall_mem_cons] at hr
    rw [renderSpec_element, buildElement_eq_ok] at h
    obtain ⟨htag, -, u, hattrs, h⟩ := h
    have hkeys := (setAttributes_isOk _ _ _).mp ⟨u, hattrs⟩
    rw [Spec.parts, List.forall_mem_cons, Spec.holes_element]
    by_cases hmem : .hole ∈ children
    · obtain rfl := eq_hole_of_length hmem (alone_of_renderChildren h hmem)
      rw [renderChildren] at h
      cases h
      exact ⟨⟨⟨htag, hkeys, fun _ => rfl⟩, List.forall_mem_nil _⟩, rfl⟩
    · obtain ⟨hsound, hcount⟩ := sound_of_renderChildren children hmem hr.2 h
      refine ⟨⟨⟨htag, hkeys, fun h => absurd h hmem⟩, hsound⟩, ?_⟩
      rw [hcount, SpecChild.countP_isHole hmem]
      rfl
  | .json value origin, hr, _, _, _, _ => (hr _ (List.mem_singleton.mpr rfl)).elim

theorem sound_of_renderChildren {blocked : List Suspicious} {node : η} {alone : Bool}
    {hole : Option η} : (children : List SpecChild) → .hole ∉ children →
    (∀ part ∈ SpecChild.partsOf children, part.Regular) → {s t : σ} → {rendered : Rendered η} →
    renderChildren blocked node alone hole children s = (.ok rendered, t) →
    (∀ part ∈ SpecChild.partsOf children, part.Sound) ∧
      holeCount rendered.hole = holeCount hole + SpecChild.innerHoles children
  | [], _, _, _, _, _, h => by
    rw [renderChildren] at h
    cases h
    rw [SpecChild.partsOf]
    exact ⟨List.forall_mem_nil _, rfl⟩
  | .hole :: _, hmem, _, _, _, _, _ => absurd (List.mem_cons_self ..) hmem
  | .spec spec :: rest, hmem, hr, _, _, _, h => by
    rw [SpecChild.partsOf, List.forall_mem_append] at hr
    rw [renderChildren, Building.bind_eq_ok] at h
    obtain ⟨child, u, hchild, h⟩ := h
    rw [Building.bind_eq_ok] at h
    obtain ⟨taken, v, hadopt, h⟩ := h
    obtain ⟨hone, rfl, -⟩ := adopt_eq_ok.mp hadopt
    obtain ⟨hsound, hcount⟩ := sound_of_renderSpec spec hr.1 hchild
    obtain ⟨hsounds, hcounts⟩ :=
      sound_of_renderChildren rest (fun h => hmem (List.mem_cons_of_mem _ h)) hr.2 h
    rw [SpecChild.partsOf, SpecChild.innerHoles_spec, hcounts, holeCount_or hone, hcount]
    exact ⟨List.forall_mem_append.mpr ⟨hsound, hsounds⟩, by omega⟩

end

omit [TreeBuilder σ η] in
theorem holeCount_eq_zero {hole : Option η} : holeCount hole = 0 ↔ hole = none := by
  cases hole with
  | none => exact iff_of_true rfl rfl
  | some node => exact iff_of_false nofun nofun

mutual

/-- What follows the rules can be rendered. -/
theorem exists_renderSpec (blocked : List Suspicious) : (spec : Spec) →
    (∀ part ∈ spec.parts, part.Regular) → (∀ part ∈ spec.parts, part.Sound) → spec.holes ≤ 1 →
    (s : σ) → ∃ rendered t, renderSpec blocked spec s = (.ok rendered, t)
  | .text text, _, _, _, s => by
    rw [renderSpec]
    exact ⟨_, _, rfl⟩
  | .tree sub, _, _, _, s => by
    rw [renderSpec]
    exact ⟨_, _, renderTree_apply sub none s⟩
  | .treeWithHole sub none, _, _, _, s => by
    rw [renderSpec]
    exact ⟨_, _, renderTree_apply sub none s⟩
  | .treeWithHole sub (some hole), hr, hs, _, s => by
    have hp : sub.Plain := hr _ (List.mem_singleton.mpr rfl)
    have helement := (isElementOf_iff hp.wellFormed hole).mpr (hs _ (List.mem_singleton.mpr rfl))
    rw [renderSpec, if_pos helement]
    exact ⟨_, _, renderTree_apply sub (some hole) s⟩
  | .element tag attrs children, hr, hs, hone, s => by
    rw [Spec.parts, List.forall_mem_cons] at hr hs
    obtain ⟨⟨htag, hkeys, halone⟩, hs⟩ := hs
    obtain ⟨u, hattrs⟩ := (setAttributes_isOk (TreeBuilder.createElement s tag).1 attrs
      (TreeBuilder.createElement s tag).2).mpr hkeys
    simp only [renderSpec_element, buildElement_eq_ok]
    rw [Spec.holes_element] at hone
    by_cases hmem : .hole ∈ children
    · obtain rfl := halone hmem
      exact ⟨_, _, htag, trivial, u, hattrs, rfl⟩
    · have hinner : holeCount (none : Option η) + SpecChild.innerHoles children ≤ 1 := by
        have hnone : holeCount (none : Option η) = 0 := rfl
        omega
      obtain ⟨rendered, t, h⟩ := exists_renderChildren blocked (TreeBuilder.createElement s tag).1
        (children.length == 1) none children hmem hr.2 hs hinner u
      exact ⟨rendered, t, htag, trivial, u, hattrs, h⟩
  | .json value origin, hr, _, _, _ => (hr _ (List.mem_singleton.mpr rfl)).elim

theorem exists_renderChildren (blocked : List Suspicious) (node : η) (alone : Bool)
    (hole : Option η) : (children : List SpecChild) → .hole ∉ children →
    (∀ part ∈ SpecChild.partsOf children, part.Regular) →
    (∀ part ∈ SpecChild.partsOf children, part.Sound) →
    holeCount hole + SpecChild.innerHoles children ≤ 1 →
    (s : σ) → ∃ rendered t, renderChildren blocked node alone hole children s = (.ok rendered, t)
  | [], _, _, _, _, s => by
    rw [renderChildren]
    exact ⟨_, _, rfl⟩
  | .hole :: _, hmem, _, _, _, _ => absurd (List.mem_cons_self ..) hmem
  | .spec spec :: rest, hmem, hr, hs, hone, s => by
    rw [SpecChild.partsOf, List.forall_mem_append] at hr hs
    rw [SpecChild.innerHoles_spec] at hone
    obtain ⟨child, u, hchild⟩ := exists_renderSpec blocked spec hr.1 hs.1 (by omega) s
    have hcount := (sound_of_renderSpec spec hr.1 hchild).2
    have hfree : child.hole = none ∨ hole = none := by
      rw [← holeCount_eq_zero, ← holeCount_eq_zero]
      omega
    obtain ⟨rendered, t, h⟩ := exists_renderChildren blocked node alone
      (child.hole.or hole) rest (fun h => hmem (List.mem_cons_of_mem _ h)) hr.2 hs.2
      (by rw [holeCount_or hfree]; omega) (TreeBuilder.appendChild u node child.root)
    refine ⟨rendered, t, ?_⟩
    rw [renderChildren, Building.bind_apply_ok hchild,
      Building.bind_apply_ok (adopt_eq_ok.mpr ⟨hfree, rfl, rfl⟩)]
    exact h

end

/-- Exactly the descriptions that follow the rules can be rendered. -/
theorem render_isOk_iff {spec : Spec} (hp : spec.TreesPlain) (s : σ) :
    (∃ (rendered : Rendered η) (t : σ), spec.render s = (.ok rendered, t)) ↔ spec.InLanguage := by
  have hregular := Spec.regular_typed spec hp
  rw [Spec.inLanguage_iff]
  constructor
  · rintro ⟨rendered, t, h⟩
    have hjson := isTemplate_of_renderSpec spec h
    rw [Spec.render, renderSpec_typed spec hjson] at h
    obtain ⟨hsound, hcount⟩ := sound_of_renderSpec spec.typed hregular h
    refine ⟨hjson, hsound, ?_⟩
    rw [← hcount, holeCount]
    split <;> omega
  · rintro ⟨hjson, hsound, hone⟩
    obtain ⟨rendered, t, h⟩ := exists_renderSpec [] spec.typed hregular hsound hone s
    rw [Spec.render, renderSpec_typed spec hjson]
    exact ⟨rendered, t, h⟩

/-- A rendered description has a hole if its description has one. -/
theorem render_hole {spec : Spec} (hp : spec.TreesPlain) {s t : σ} {rendered : Rendered η}
    (h : spec.render s = (.ok rendered, t)) :
    rendered.hole.isSome = true ↔ spec.typed.holes = 1 := by
  have hjson := isTemplate_of_renderSpec spec h
  rw [Spec.render, renderSpec_typed spec hjson] at h
  obtain ⟨-, hcount⟩ := sound_of_renderSpec spec.typed (Spec.regular_typed spec hp) h
  rw [← hcount, holeCount]
  split <;> simp_all

end

end RichDoc
