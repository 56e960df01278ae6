import RichDoc.Dom.Basic

/-!
# Attributes that are set in order

Setting an attribute that is there replaces its value and keeps its place. So what is left after
setting attributes one after another can be read off the list of them.
-/

namespace RichDoc

namespace Attribute

/-- The value of the first attribute of a name. -/
def valueOf (attrs : List Attribute) (name : QualName) : Option String :=
  (attrs.find? fun a => a.name = name).map Attribute.value

/-- What is left of attributes that are set in order: each name stands where it was set first, with
the value that was set last. -/
def settled : List Attribute → List Attribute
  | [] => []
  | a :: rest =>
    ⟨a.name, (valueOf (settled rest) a.name).getD a.value⟩ ::
      (settled rest).filter fun b => b.name ≠ a.name

theorem valueOf_putAttribute (attrs : List Attribute) (name : QualName) (value : String)
    (other : QualName) :
    valueOf (Dom.putAttribute attrs name value) other =
      if name = other then some value else valueOf attrs other := by
  induction attrs with
  | nil =>
    by_cases h : name = other <;> simp [Dom.putAttribute, valueOf, h]
  | cons a rest ih =>
    rw [Dom.putAttribute]
    by_cases ha : a.name = name
    · rw [if_pos ha]
      by_cases h : name = other
      · simp [valueOf, h]
      · have hne : ¬a.name = other := fun he => h (ha.symm.trans he)
        simp [valueOf, h, hne]
    · rw [if_neg ha]
      by_cases h : a.name = other
      · have hne : ¬name = other := fun he => ha (h.trans he.symm)
        simp [valueOf, h, hne]
      · rw [valueOf] at ih ⊢
        rw [List.find?_cons_of_neg (by simpa using h), ih, valueOf, valueOf,
          List.find?_cons_of_neg (by simpa using h)]

theorem filter_putAttribute (attrs : List Attribute) (name : QualName) (value : String)
    (other : QualName) :
    (Dom.putAttribute attrs name value).filter (fun b => b.name ≠ other) =
      if name = other then attrs.filter fun b => b.name ≠ other
      else Dom.putAttribute (attrs.filter fun b => b.name ≠ other) name value := by
  induction attrs with
  | nil =>
    by_cases h : name = other <;> simp [Dom.putAttribute, h]
  | cons a rest ih =>
    rw [Dom.putAttribute]
    by_cases ha : a.name = name
    · rw [if_pos ha]
      by_cases h : name = other
      · simp [h, ha]
      · have hne : a.name ≠ other := fun he => h (ha.symm.trans he)
        simp [h, ha, Dom.putAttribute]
    · rw [if_neg ha]
      by_cases h : a.name = other
      · have hne : ¬name = other := fun he => ha (h.trans he.symm)
        rw [List.filter_cons_of_neg (by simpa using h), ih,
          List.filter_cons_of_neg (by simpa using h)]
      · rw [List.filter_cons_of_pos (by simpa using h), ih,
          List.filter_cons_of_pos (by simpa using h)]
        by_cases hname : name = other
        · rw [if_pos hname, if_pos hname]
        · rw [if_neg hname, if_neg hname, Dom.putAttribute, if_neg ha]

/-- One more attribute is set. -/
theorem settled_concat (attrs : List Attribute) (a : Attribute) :
    settled (attrs ++ [a]) = Dom.putAttribute (settled attrs) a.name a.value := by
  induction attrs with
  | nil => rfl
  | cons b rest ih =>
    rw [List.cons_append, settled, ih, settled, valueOf_putAttribute, filter_putAttribute,
      Dom.putAttribute]
    by_cases h : a.name = b.name
    · rw [if_pos h, if_pos h, if_pos h.symm, Option.getD_some, h]
    · rw [if_neg h, if_neg h, if_neg fun he => h he.symm]

/-- Only the names that were set are left, each of them once. -/
theorem names_settled (attrs : List Attribute) :
    ((settled attrs).map Attribute.name).Nodup ∧
      ∀ a ∈ settled attrs, a.name ∈ attrs.map Attribute.name := by
  induction attrs with
  | nil => exact ⟨List.nodup_nil, List.forall_mem_nil _⟩
  | cons a rest ih =>
    obtain ⟨hnodup, hnames⟩ := ih
    rw [settled]
    constructor
    · rw [List.map_cons, List.nodup_cons]
      refine ⟨fun hmem => ?_, hnodup.sublist (List.filter_sublist.map Attribute.name)⟩
      obtain ⟨b, hb, hname⟩ := List.mem_map.mp hmem
      have hne := (List.mem_filter.mp hb).2
      simp [hname] at hne
    · refine List.forall_mem_cons.mpr ⟨List.mem_cons_self .., fun b hb => ?_⟩
      exact List.mem_cons_of_mem _ (hnames b (List.mem_filter.mp hb).1)

end Attribute

end RichDoc
