import RichDoc.Proofs.Template.Elements

/-!
# Typed descriptions for JSON ones

The JSON form of descriptions adds nothing to the typed form. A JSON value that describes a tree
stands for a typed description, which is rendered alike, and a value that describes none cannot be
rendered.
-/

namespace RichDoc

/-! ### JSON descriptions as typed ones -/

/-- A JSON value describes a tree: it is a string, or an array of a tag, perhaps an object of
attributes, and children, each of which is the number zero or describes a tree. -/
inductive Json.IsTemplate : Json → Prop where
  | text (text : String) : IsTemplate (.str text)
  | element (tag : String) {items : List Json} :
      (∀ item ∈ (arrayParts items).2.2, item ≠ .num (.int 0) → IsTemplate item) →
      IsTemplate (.arr (.str tag :: items))

mutual

/-- The typed description that a JSON value stands for. Nothing is meant by a value that describes
no tree. -/
def Json.toSpec : Json → Spec
  | .str text => .text text
  | .arr (.str tag :: .obj attrs :: items) => .element tag attrs (Json.toChildren items)
  | .arr (.str tag :: items) => .element tag [] (Json.toChildren items)
  | _ => .text ""

/-- The children for which the items of an array stand. -/
def Json.toChildren : List Json → List SpecChild
  | [] => []
  | item :: rest =>
    (match itemKind item with
      | .hole => .hole
      | _ => .spec (Json.toSpec item)) :: Json.toChildren rest

end

mutual

/-- A description with typed descriptions in the place of the JSON ones. -/
def Spec.typed : Spec → Spec
  | .text text => .text text
  | .tree sub => .tree sub
  | .treeWithHole sub hole => .treeWithHole sub hole
  | .element tag attrs children => .element tag attrs (SpecChild.typedAll children)
  | .json value _ => value.toSpec

/-- Children with typed descriptions in the place of the JSON ones. -/
def SpecChild.typedAll : List SpecChild → List SpecChild
  | [] => []
  | .hole :: rest => .hole :: SpecChild.typedAll rest
  | .spec spec :: rest => .spec (Spec.typed spec) :: SpecChild.typedAll rest

end

/-! ### Descriptions inside descriptions -/

mutual

/-- A description and all descriptions inside it. -/
def Spec.parts : Spec → List Spec
  | .text text => [.text text]
  | .tree sub => [.tree sub]
  | .treeWithHole sub hole => [.treeWithHole sub hole]
  | .element tag attrs children => .element tag attrs children :: SpecChild.partsOf children
  | .json value origin => [.json value origin]

/-- The descriptions inside children. -/
def SpecChild.partsOf : List SpecChild → List Spec
  | [] => []
  | .hole :: rest => SpecChild.partsOf rest
  | .spec spec :: rest => Spec.parts spec ++ SpecChild.partsOf rest

end

/-! ### From JSON to typed descriptions -/

theorem itemKind_eq_hole {item : Json} : itemKind item = .hole ↔ item = .num (.int 0) := by
  constructor
  · intro h
    cases item with
    | num n =>
      rw [itemKind] at h
      split at h
      · rename_i hn
        cases n with
        | int n =>
          cases n with
          | ofNat n =>
            obtain rfl : n = 0 := Option.some.inj hn
            rfl
          | negSucc n => cases hn
        | float x => cases hn
      · cases h
    | _ => cases h
  · rintro rfl
    rfl

/-- An item that is neither a text nor an array describes no tree. -/
theorem not_isTemplate_of_other {item : Json} (h : itemKind item = .other) :
    ¬item.IsTemplate := by
  rintro (text | ⟨tag, hitems⟩) <;> cases h

theorem Json.toSpec_array (tag : String) (items : List Json) :
    Json.toSpec (.arr (.str tag :: items)) =
      .element tag (arrayParts items).1 (Json.toChildren (arrayParts items).2.2) := by
  unfold arrayParts
  split
  · rw [Json.toSpec]
  · rw [Json.toSpec]
    assumption

theorem Json.toChildren_cons (item : Json) (rest : List Json) :
    Json.toChildren (item :: rest) =
      (match itemKind item with
        | .hole => .hole
        | _ => .spec item.toSpec) :: Json.toChildren rest := by
  rw [Json.toChildren]

theorem Json.length_toChildren (items : List Json) :
    (Json.toChildren items).length = items.length := by
  induction items with
  | nil => rw [Json.toChildren, List.length_nil, List.length_nil]
  | cons item rest ih => rw [Json.toChildren_cons, List.length_cons, ih, List.length_cons]

/-- Without flagged places, or without a place of its own, an array is not refused. -/
theorem isBlocked_of_nil_or_none {blocked : List Suspicious} {origin : Option Origin}
    (h : blocked = [] ∨ origin = none) : isBlocked blocked origin = false := by
  rcases h with rfl | rfl
  · exact isBlocked_nil origin
  · rfl

section

variable {σ η : Type} [TreeBuilder σ η]

mutual

/-- A JSON description that cannot be refused as a stored array is rendered as the typed one. -/
theorem renderJson_eq (blocked : List Suspicious) (origin : Option Origin)
    (hb : blocked = [] ∨ origin = none) (value : Json) (h : value.IsTemplate) :
    (renderJson blocked origin value : Building σ (Rendered η)) =
      renderSpec blocked value.toSpec := by
  match value, h with
  | .str text, _ => rw [renderJson, Json.toSpec, renderSpec]
  | .arr (.str tag :: items), .element _ hitems =>
    rw [renderJson_array, Json.toSpec_array, renderSpec_element,
      isBlocked_of_nil_or_none hb, Json.length_toChildren]
    congr 1
    funext node
    exact renderItems_eq blocked origin hb tag node _ _ none (arrayParts items).2.2 hitems
termination_by sizeOf value
decreasing_by
  have := sizeOf_arrayParts items
  simp only [Json.arr.sizeOf_spec, List.cons.sizeOf_spec]
  omega

theorem renderItems_eq (blocked : List Suspicious) (origin : Option Origin)
    (hb : blocked = [] ∨ origin = none) (tag : String) (node : η) (alone : Bool) (index : Nat)
    (hole : Option η) (items : List Json)
    (h : ∀ item ∈ items, item ≠ .num (.int 0) → item.IsTemplate) :
    (renderItems blocked origin tag node alone index hole items : Building σ (Rendered η)) =
      renderChildren blocked node alone hole (Json.toChildren items) := by
  match items with
  | [] => rw [renderItems, Json.toChildren, renderChildren]
  | item :: rest =>
    obtain ⟨hitem, hrest⟩ := List.forall_mem_cons.mp h
    have hplace : blocked = [] ∨ (origin.map fun place => place.item index) = none :=
      hb.imp_right fun hnone => Option.map_eq_none_iff.mpr hnone
    rw [renderItems, Json.toChildren_cons]
    cases hkind : itemKind item with
    | hole => rw [renderChildren]
    | template =>
      have hne : item ≠ .num (.int 0) := fun he => by
        rw [itemKind_eq_hole.mpr he] at hkind
        cases hkind
      simp only [renderChildren, renderJson_eq blocked _ hplace item (hitem hne)]
      congr 1
      funext child
      congr 1
      funext taken
      exact renderItems_eq blocked origin hb tag node alone (index + 1) taken rest hrest
    | other =>
      have hne : item ≠ .num (.int 0) := fun he => by
        rw [itemKind_eq_hole.mpr he] at hkind
        cases hkind
      exact absurd (hitem hne) (not_isTemplate_of_other hkind)
termination_by sizeOf items

end

/-- A JSON description that is stored nowhere and the typed description for which it stands are one
and the same work, whatever is built and whichever sources are guarded against. So they make the
same calls, and end with the same result or in the same failure. -/
theorem render_json_eq_typed {value : Json} (h : value.IsTemplate) :
    ((Spec.json value none).render : Building σ (Rendered η)) = value.toSpec.render ∧
      ∀ sources, ((Spec.json value none).renderGuarded sources : Guarding σ (Rendered η)) =
        value.toSpec.renderGuarded sources := by
  have hspec : ∀ blocked, (renderSpec blocked (.json value none) : Building σ (Rendered η)) =
      renderSpec blocked value.toSpec := by
    intro blocked
    rw [renderSpec]
    exact renderJson_eq blocked none (.inr rfl) value h
  refine ⟨hspec [], fun sources => ?_⟩
  simp only [Spec.renderGuarded, hspec]

/-- A list with two places for content, the second of which is refused after it has been built. -/
def sampleList : Json :=
  .arr [.str "ul", .obj [("class", .str "x"), ("", .null)], .arr [.str "li", .str "one"],
    .arr [.str "li", .num (.int 0)], .arr [.str "li", .num (.int 0)]]

/-- Both forms of the list fail alike, also where an equal list is stored in the attributes of a
source. -/
theorem render_json_eq_typed_sample :
    let work : Guarding Dom (Rendered NodeId) :=
      (Spec.json sampleList none).renderGuarded [⟨0, [("list", sampleList)]⟩]
    sampleList.IsTemplate ∧
      sampleList.toSpec = .element "ul" [("class", .str "x"), ("", .null)]
        [.spec (.element "li" [] [.spec (.text "one")]), .spec (.element "li" [] [.hole]),
          .spec (.element "li" [] [.hole])] ∧
      work = sampleList.toSpec.renderGuarded [⟨0, [("list", sampleList)]⟩] ∧
      (work ⟨.empty, .empty⟩).1 = .error (.malformedTemplate .severalHoles) ∧
      (work ⟨.empty, .empty⟩).2.tree.size = 6 := by
  intro work
  have hhole : ∀ item ∈ [Json.num (.int 0)], item ≠ .num (.int 0) → item.IsTemplate :=
    List.forall_mem_singleton.mpr fun hne => absurd rfl hne
  have hitems : ∀ item ∈ (arrayParts [.obj [("class", .str "x"), ("", .null)],
      .arr [.str "li", .str "one"], .arr [.str "li", .num (.int 0)],
      .arr [.str "li", .num (.int 0)]]).2.2, item ≠ .num (.int 0) → item.IsTemplate := by
    refine List.forall_mem_cons.mpr ⟨fun _ => .element "li" ?_, List.forall_mem_cons.mpr
      ⟨fun _ => .element "li" hhole, List.forall_mem_singleton.mpr fun _ => .element "li" hhole⟩⟩
    exact List.forall_mem_singleton.mpr fun _ => .text "one"
  have htemplate : sampleList.IsTemplate := .element "ul" hitems
  exact ⟨htemplate, rfl, (render_json_eq_typed htemplate).2 _, rfl, rfl⟩

mutual

/-- A JSON value that can be rendered describes a tree. -/
theorem isTemplate_of_renderJson {blocked : List Suspicious} {origin : Option Origin}
    (value : Json) {s t : σ} {rendered : Rendered η}
    (h : renderJson blocked origin value s = (.ok rendered, t)) : value.IsTemplate := by
  match value with
  | .str text => exact .text text
  | .arr (.str tag :: items) =>
    rw [renderJson_array, buildElement_eq_ok] at h
    obtain ⟨-, -, u, -, h⟩ := h
    exact .element tag (areTemplates_of_renderItems _
      (fun halone => Nat.le_of_eq (beq_iff_eq.mp halone)) h)
  | .arr [] | .arr (.null :: _) | .arr (.bool _ :: _) | .arr (.num _ :: _) | .arr (.arr _ :: _)
  | .arr (.obj _ :: _) => cases h
  | .null | .bool _ | .num _ | .obj _ => cases h
termination_by sizeOf value
decreasing_by
  have := sizeOf_arrayParts items
  simp only [Json.arr.sizeOf_spec, List.cons.sizeOf_spec]
  omega

/-- The items of an array that can be rendered describe trees, except for the hole. -/
theorem areTemplates_of_renderItems {blocked : List Suspicious} {origin : Option Origin}
    {tag : String} {node : η} {alone : Bool} {index : Nat} {hole : Option η} (items : List Json)
    {s t : σ} {rendered : Rendered η} (halone : alone = true → items.length ≤ 1)
    (h : renderItems blocked origin tag node alone index hole items s = (.ok rendered, t)) :
    ∀ item ∈ items, item ≠ .num (.int 0) → item.IsTemplate := by
  match items with
  | [] => exact List.forall_mem_nil _
  | item :: rest =>
    rw [List.forall_mem_cons]
    rw [renderItems] at h
    cases hkind : itemKind item with
    | hole =>
      rw [hkind] at h
      cases alone with
      | false => cases h
      | true =>
        have hrest : rest = [] := List.eq_nil_of_length_eq_zero (by
          have := halone rfl
          rw [List.length_cons] at this
          omega)
        rw [hrest]
        exact ⟨fun hne => absurd (itemKind_eq_hole.mp hkind) hne, List.forall_mem_nil _⟩
    | template =>
      rw [hkind, Building.bind_eq_ok] at h
      obtain ⟨child, u, hchild, h⟩ := h
      rw [Building.bind_eq_ok] at h
      obtain ⟨taken, v, -, h⟩ := h
      refine ⟨fun _ => isTemplate_of_renderJson item hchild, areTemplates_of_renderItems rest ?_ h⟩
      intro ha
      have := halone ha
      rw [List.length_cons] at this
      omega
    | other =>
      rw [hkind] at h
      cases h
termination_by sizeOf items

end

theorem SpecChild.length_typedAll (children : List SpecChild) :
    (SpecChild.typedAll children).length = children.length := by
  induction children with
  | nil => rw [SpecChild.typedAll]
  | cons child rest ih =>
    cases child with
    | hole => rw [SpecChild.typedAll, List.length_cons, ih, List.length_cons]
    | spec spec => rw [SpecChild.typedAll, List.length_cons, ih, List.length_cons]

mutual

/-- A description is rendered like the one in which the JSON descriptions are typed. -/
theorem renderSpec_typed : (spec : Spec) →
    (∀ value origin, .json value origin ∈ spec.parts → value.IsTemplate) →
    (renderSpec [] spec : Building σ (Rendered η)) = renderSpec [] spec.typed
  | .text _, _ | .tree _, _ | .treeWithHole _ _, _ => by rw [Spec.typed]
  | .element tag attrs children, h => by
    rw [Spec.typed, renderSpec_element, renderSpec_element, SpecChild.length_typedAll]
    congr 1
    funext node
    refine renderChildren_typed node _ none children fun value origin hmem => h value origin ?_
    rw [Spec.parts]
    exact List.mem_cons_of_mem _ hmem
  | .json value origin, h => by
    rw [renderSpec, Spec.typed]
    refine renderJson_eq [] origin (.inl rfl) value (h value origin ?_)
    rw [Spec.parts]
    exact List.mem_singleton.mpr rfl

theorem renderChildren_typed (node : η) (alone : Bool) (hole : Option η) :
    (children : List SpecChild) →
    (∀ value origin, .json value origin ∈ SpecChild.partsOf children → value.IsTemplate) →
    (renderChildren [] node alone hole children : Building σ (Rendered η)) =
      renderChildren [] node alone hole (SpecChild.typedAll children)
  | [], _ => by rw [SpecChild.typedAll]
  | .hole :: rest, _ => by rw [SpecChild.typedAll, renderChildren, renderChildren]
  | .spec spec :: rest, h => by
    simp only [SpecChild.partsOf, List.mem_append] at h
    rw [SpecChild.typedAll, renderChildren, renderChildren,
      renderSpec_typed spec fun value origin hmem => h value origin (Or.inl hmem)]
    congr 1
    funext child
    congr 1
    funext taken
    exact renderChildren_typed node alone taken rest fun value origin hmem =>
      h value origin (Or.inr hmem)

end

mutual

/-- The JSON values in a description that can be rendered describe trees. -/
theorem isTemplate_of_renderSpec {blocked : List Suspicious} : (spec : Spec) → {s t : σ} →
    {rendered : Rendered η} → renderSpec blocked spec s = (.ok rendered, t) →
    ∀ value origin, .json value origin ∈ spec.parts → value.IsTemplate
  | .text _, _, _, _, _, value, origin, hmem | .tree _, _, _, _, _, value, origin, hmem
  | .treeWithHole _ _, _, _, _, _, value, origin, hmem => by
    rw [Spec.parts, List.mem_singleton] at hmem
    cases hmem
  | .element tag attrs children, _, _, _, h, value, origin, hmem => by
    rw [renderSpec_element, buildElement_eq_ok] at h
    obtain ⟨-, -, u, -, h⟩ := h
    rw [Spec.parts, List.mem_cons] at hmem
    rcases hmem with he | hmem
    · cases he
    · exact isTemplate_of_renderChildren children
        (fun halone => Nat.le_of_eq (beq_iff_eq.mp halone)) h value origin hmem
  | .json found _, _, _, _, h, value, origin, hmem => by
    rw [Spec.parts, List.mem_singleton] at hmem
    cases hmem
    rw [renderSpec] at h
    exact isTemplate_of_renderJson found h

theorem isTemplate_of_renderChildren {blocked : List Suspicious} {node : η} {alone : Bool}
    {hole : Option η} : (children : List SpecChild) → {s t : σ} → {rendered : Rendered η} →
    (alone = true → children.length ≤ 1) →
    renderChildren blocked node alone hole children s = (.ok rendered, t) →
    ∀ value origin, .json value origin ∈ SpecChild.partsOf children → value.IsTemplate
  | [], _, _, _, _, _, value, origin, hmem => by
    rw [SpecChild.partsOf] at hmem
    cases hmem
  | .hole :: rest, _, _, _, halone, h, value, origin, hmem => by
    rw [renderChildren] at h
    cases alone with
    | false => cases h
    | true =>
      have hrest : rest = [] := List.eq_nil_of_length_eq_zero (by
        have := halone rfl
        rw [List.length_cons] at this
        omega)
      rw [hrest, SpecChild.partsOf, SpecChild.partsOf] at hmem
      cases hmem
  | .spec spec :: rest, _, _, _, halone, h, value, origin, hmem => by
    rw [renderChildren, Building.bind_eq_ok] at h
    obtain ⟨child, u, hchild, h⟩ := h
    rw [Building.bind_eq_ok] at h
    obtain ⟨taken, v, -, h⟩ := h
    rw [SpecChild.partsOf, List.mem_append] at hmem
    rcases hmem with hmem | hmem
    · exact isTemplate_of_renderSpec spec hchild value origin hmem
    · refine isTemplate_of_renderChildren rest (fun ha => ?_) h value origin hmem
      have := halone ha
      rw [List.length_cons] at this
      omega

end

end

end RichDoc
