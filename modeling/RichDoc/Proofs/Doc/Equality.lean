import RichDoc.Proofs.Doc.Tokens

/-!
# Equality of values and marks

Equality of JSON values is coarser than identity, and equality of attribute maps looks at their
tokens first. It can be passed on from one mark to the next as long as tokens tell maps apart.
-/

namespace RichDoc

/-- Doubles are equal by value, and both zeros have one value. -/
theorem Binary64.sameValue_trans {x y z : Binary64} (h : x.sameValue y = true)
    (h' : y.sameValue z = true) : x.sameValue z = true := by
  simp only [sameValue, Bool.or_eq_true, Bool.and_eq_true, beq_iff_eq] at h h' ⊢
  rcases h with ⟨hx, hy⟩ | rfl
  · rcases h' with ⟨-, hz⟩ | rfl
    · exact Or.inl ⟨hx, hz⟩
    · exact Or.inl ⟨hx, hy⟩
  · exact h'

/-- Numbers are equal by value if they are of one kind. -/
theorem Number.same_trans {a b c : Number} (h : a.same b = true) (h' : b.same c = true) :
    a.same c = true := by
  cases a <;> cases b <;> cases c <;> simp only [Number.same, beq_iff_eq, reduceCtorEq] at h h' ⊢
  · exact h.trans h'
  · exact Binary64.sameValue_trans h h'

namespace Json

/-- A field of an object is in every object that holds the same fields. -/
theorem exists_of_sameFields {fields other : Fields} (h : sameFields fields other = true)
    {key : String} {value : Json} (hget : Fields.get? fields key = some value) :
    ∃ found, Fields.get? other key = some found ∧ same value found = true := by
  induction fields with
  | nil => cases hget
  | cons field rest ih =>
    obtain ⟨k, v⟩ := field
    rw [sameFields, Bool.and_eq_true] at h
    rw [Fields.get?] at hget
    by_cases hk : k = key
    · rw [if_pos hk] at hget
      obtain rfl := Option.some.inj hget
      cases hfound : Fields.get? other k with
      | none =>
        rw [hfound] at h
        cases h.1
      | some found =>
        rw [hfound] at h
        exact ⟨found, hk ▸ hfound, h.1⟩
    · rw [if_neg hk] at hget
      exact ih h.2 hget

mutual

/-- Two values that are equal to a third one are equal. -/
theorem same_trans : (a : Json) → {b c : Json} → same a b = true → same b c = true →
    same a c = true
  | .null, b, c, h, h' => by cases b <;> cases c <;> simp [same] at h h' ⊢
  | .bool _, b, c, h, h' => by cases b <;> cases c <;> simp_all [same]
  | .num _, b, c, h, h' => by
    cases b <;> cases c <;> simp only [same, reduceCtorEq] at h h' ⊢
    exact Number.same_trans h h'
  | .str _, b, c, h, h' => by cases b <;> cases c <;> simp_all [same]
  | .arr a, b, c, h, h' => by
    cases b <;> cases c <;> simp only [same, reduceCtorEq] at h h' ⊢
    exact sameItems_trans a h h'
  | .obj a, b, c, h, h' => by
    cases b <;> cases c <;> simp only [same, reduceCtorEq, Bool.and_eq_true, beq_iff_eq] at h h' ⊢
    exact ⟨h.1.trans h'.1, sameFields_trans a h.2 fun _ _ => exists_of_sameFields h'.2⟩

/-- Lists of values are equal item by item. -/
theorem sameItems_trans : (a : List Json) → {b c : List Json} → sameItems a b = true →
    sameItems b c = true → sameItems a c = true
  | [], b, c, h, h' => by cases b <;> cases c <;> simp [sameItems] at h h' ⊢
  | a :: as, b, c, h, h' => by
    cases b <;> cases c <;> simp only [sameItems, reduceCtorEq, Bool.and_eq_true] at h h' ⊢
    exact ⟨same_trans a h.1 h'.1, sameItems_trans as h.2 h'.2⟩

/-- Objects are equal by what they have under each name, whatever the order of their fields. -/
theorem sameFields_trans : (a : Fields) → {b c : Fields} → sameFields a b = true →
    (∀ key value, Fields.get? b key = some value →
      ∃ found, Fields.get? c key = some found ∧ same value found = true) →
    sameFields a c = true
  | [], _, _, _, _ => rfl
  | (key, value) :: rest, b, c, h, hb => by
    rw [sameFields, Bool.and_eq_true] at h ⊢
    refine ⟨?_, sameFields_trans rest h.2 hb⟩
    cases hget : Fields.get? b key with
    | none =>
      rw [hget] at h
      cases h.1
    | some other =>
      rw [hget] at h
      obtain ⟨found, hfound, hsame⟩ := hb key other hget
      rw [hfound]
      exact same_trans value h.1 hsame

end

end Json

/-- Equality of marks is passed on if tokens tell their maps apart. -/
theorem Mark.same_trans {pool : Pool} {a b c : Mark} (ha : pool.has a.attrs)
    (hb : pool.has b.attrs) (hc : pool.has c.attrs) (h : a.same b = true)
    (h' : b.same c = true) : a.same c = true := by
  simp only [Mark.same, Attrs.same, Attrs.isSame, Bool.and_eq_true, Bool.or_eq_true,
    beq_iff_eq] at h h' ⊢
  refine ⟨h.1.trans h'.1, ?_⟩
  rcases h.2 with hid | hsame
  · rw [pool.apart a.attrs b.attrs ha hb hid]
    exact h'.2
  · rcases h'.2 with hid | hsame'
    · rw [← pool.apart b.attrs c.attrs hb hc hid]
      exact Or.inr hsame
    · exact Or.inr (Json.same_trans _ hsame hsame')

end RichDoc
