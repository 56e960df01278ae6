import RichDoc.Json.Basic

/-!
# Deciding whether two JSON values are written alike

Identity of values is finer than their equality: the order of fields and the sign of a zero count.
-/

namespace RichDoc.Json

mutual

/-- Whether two values are one and the same. -/
def identical : Json → Json → Bool
  | .null, .null => true
  | .bool a, .bool b => a == b
  | .num a, .num b => a == b
  | .str a, .str b => a == b
  | .arr a, .arr b => identicalItems a b
  | .obj a, .obj b => identicalFields a b
  | _, _ => false

/-- Whether two lists of items are one and the same. -/
def identicalItems : List Json → List Json → Bool
  | [], [] => true
  | a :: as, b :: bs => identical a b && identicalItems as bs
  | _, _ => false

/-- Whether two lists of fields are one and the same. -/
def identicalFields : List (String × Json) → List (String × Json) → Bool
  | [], [] => true
  | (j, a) :: as, (k, b) :: bs => j == k && identical a b && identicalFields as bs
  | _, _ => false

end

mutual

/-- The test decides equality of values. -/
theorem identical_iff : (a b : Json) → (identical a b = true ↔ a = b)
  | .null, b => by cases b <;> simp [identical]
  | .bool _, b => by cases b <;> simp [identical]
  | .num _, b => by cases b <;> simp [identical]
  | .str _, b => by cases b <;> simp [identical]
  | .arr a, b => by cases b <;> simp [identical, identicalItems_iff a]
  | .obj a, b => by cases b <;> simp [identical, identicalFields_iff a]

/-- The test decides equality of lists of items. -/
theorem identicalItems_iff : (a b : List Json) → (identicalItems a b = true ↔ a = b)
  | [], b => by cases b <;> simp [identicalItems]
  | a :: as, b => by cases b <;> simp [identicalItems, identical_iff a, identicalItems_iff as]

/-- The test decides equality of lists of fields. -/
theorem identicalFields_iff : (a b : List (String × Json)) → (identicalFields a b = true ↔ a = b)
  | [], b => by cases b <;> simp [identicalFields]
  | (j, a) :: as, b => by
    cases b with
    | nil => simp [identicalFields]
    | cons field bs =>
      obtain ⟨k, b⟩ := field
      simp [identicalFields, identical_iff a b, identicalFields_iff as bs]

end

instance : DecidableEq Json := fun a b => decidable_of_iff _ (identical_iff a b)

end RichDoc.Json
