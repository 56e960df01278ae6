import RichDoc.Proofs.Running

/-!
# The elements of a description

An element is built in the same way from a typed description and from a JSON array: the tag is
checked, the element is created, its attributes are set, and then it is filled. In between an array
can be refused, which is all in which the two differ.
-/

namespace RichDoc

variable {σ η : Type} [TreeBuilder σ η]

/-- Build an element that is filled by some work, unless it is refused. -/
def buildElement (tag : String) (refused : Bool) (attrs : List (String × Json))
    (fill : η → Building σ (Rendered η)) : Building σ (Rendered η) := do
  checkTag tag
  if refused then throw (.unsafeTemplate tag)
  else
    let node ← modifyGet fun s => TreeBuilder.createElement s tag
    setAttributes node attrs
    fill node

/-- Nothing has to be refused if nothing is blocked. -/
theorem isBlocked_nil (origin : Option Origin) : isBlocked [] origin = false := by
  cases origin <;> rfl

theorem checkTag_apply (tag : String) (s : σ) :
    (checkTag tag : Building σ Unit) s =
      if Html.isTagName tag then (.ok (), s)
      else (.error (.malformedTemplate (.badTag tag)), s) := by
  unfold checkTag
  split <;> rfl

/-- Attributes can be set if each name is empty or can be printed. -/
theorem setAttributes_isOk (node : η) (attrs : List (String × Json)) (s : σ) :
    (∃ t, (setAttributes node attrs : Building σ Unit) s = (.ok (), t)) ↔
      ∀ attr ∈ attrs, attr.1 = "" ∨ Html.isAttrName attr.1 = true := by
  induction attrs generalizing s with
  | nil => exact iff_of_true ⟨s, rfl⟩ (List.forall_mem_nil _)
  | cons attr rest ih =>
    obtain ⟨key, value⟩ := attr
    rw [setAttributes, List.forall_mem_cons]
    by_cases hempty : key = ""
    · rw [if_pos (String.isEmpty_iff.mpr hempty), ih]
      exact ⟨fun h => ⟨Or.inl hempty, h⟩, fun h => h.2⟩
    · rw [if_neg fun h => hempty (String.isEmpty_iff.mp h)]
      by_cases hname : Html.isAttrName key = true
      · rw [if_pos hname]
        simp only [Building.bind_apply_ok (Building.modify_apply _ _)]
        rw [ih]
        exact ⟨fun h => ⟨Or.inr hname, h⟩, fun h => h.2⟩
      · rw [if_neg hname]
        refine iff_of_false (fun ⟨_, h⟩ => nomatch h) fun h => ?_
        rcases h.1 with h | h
        · exact hempty h
        · exact hname h

/-- An element is built if its tag can be printed, it is not refused, its attributes can be set and
it can be filled. -/
theorem buildElement_eq_ok {tag : String} {refused : Bool} {attrs : List (String × Json)}
    {fill : η → Building σ (Rendered η)} {s t : σ} {rendered : Rendered η} :
    buildElement tag refused attrs fill s = (.ok rendered, t) ↔
      Html.isTagName tag = true ∧ refused = false ∧
        ∃ u, setAttributes (TreeBuilder.createElement s tag).1 attrs
            (TreeBuilder.createElement s tag).2 = (.ok (), u) ∧
          fill (TreeBuilder.createElement s tag).1 u = (.ok rendered, t) := by
  unfold buildElement
  by_cases htag : Html.isTagName tag = true
  · have hcheck : (checkTag tag : Building σ Unit) s = (.ok (), s) := by
      rw [checkTag_apply, if_pos htag]
    rw [Building.bind_apply_ok hcheck]
    cases refused with
    | false =>
      rw [if_neg Bool.false_ne_true, Building.bind_apply_ok (Building.modifyGet_apply _ _),
        Building.bind_eq_ok]
      constructor
      · rintro ⟨_, u, hattrs, hfill⟩
        exact ⟨htag, rfl, u, hattrs, hfill⟩
      · rintro ⟨_, _, u, hattrs, hfill⟩
        exact ⟨(), u, hattrs, hfill⟩
    | true =>
      rw [if_pos rfl]
      exact iff_of_false (fun h => nomatch h) fun h => nomatch h.2.1
  · have hcheck : (checkTag tag : Building σ Unit) s =
        (.error (.malformedTemplate (.badTag tag)), s) := by
      rw [checkTag_apply, if_neg htag]
    rw [Building.bind_apply_error hcheck]
    exact iff_of_false (fun h => nomatch h) fun h => htag h.1

/-- What follows the tag in an array: the attributes, the index of the first child, and the
children. -/
def arrayParts : List Json → List (String × Json) × Nat × List Json
  | .obj attrs :: items => (attrs, 2, items)
  | items => ([], 1, items)

theorem sizeOf_arrayParts (items : List Json) : sizeOf (arrayParts items).2.2 ≤ sizeOf items := by
  unfold arrayParts
  split
  · simp only [List.cons.sizeOf_spec]
    omega
  · exact Nat.le_refl _

/-- The typed description of an element. -/
theorem renderSpec_element (blocked : List Suspicious) (tag : String)
    (attrs : List (String × Json)) (children : List SpecChild) :
    (renderSpec blocked (.element tag attrs children) : Building σ (Rendered η)) =
      buildElement tag false attrs fun node =>
        renderChildren blocked node (children.length == 1) none children := by
  rw [renderSpec]
  rfl

/-- The JSON description of an element. -/
theorem renderJson_array (blocked : List Suspicious) (origin : Option Origin) (tag : String)
    (items : List Json) :
    (renderJson blocked origin (.arr (.str tag :: items)) : Building σ (Rendered η)) =
      buildElement tag (isBlocked blocked origin) (arrayParts items).1 fun node =>
        renderItems blocked origin tag node ((arrayParts items).2.2.length == 1)
          (arrayParts items).2.1 none (arrayParts items).2.2 := by
  unfold arrayParts
  split
  · rw [renderJson]
    rfl
  · rw [renderJson]
    · rfl
    · assumption

end RichDoc
