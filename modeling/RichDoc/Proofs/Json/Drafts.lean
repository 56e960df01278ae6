import RichDoc.Json.Draft
import RichDoc.Proofs.Doc.Declared
import Mathlib.Data.List.Forall2

/-!
# Values of drafts

A draft without faults has a value of its own kind, which is composed of the values of its parts.
Fields of different names are the fields of the value; of repeated names only the last field is
left.
-/

namespace RichDoc

open Json (Fields Fault Draft)

namespace Json.Fields

theorem insert_of_not_mem {fields : Fields} {key : String} (h : key ∉ fields.keys) (value : Json) :
    fields.insert key value = fields ++ [(key, value)] := by
  induction fields with
  | nil => rfl
  | cons field rest ih =>
    obtain ⟨k, v⟩ := field
    rw [mem_keys_cons, not_or] at h
    rw [insert, if_neg (Ne.symm h.1), ih h.2, List.cons_append]

/-- Pairs of different names are fields as they are. -/
theorem ofPairs_of_nodup {pairs : List (String × Json)} (h : (pairs.map Prod.fst).Nodup) :
    ofPairs pairs = pairs := by
  induction pairs using List.reverseRecOn with
  | nil => rfl
  | append_singleton pairs pair ih =>
    rw [List.map_append, List.nodup_append] at h
    obtain ⟨hnodup, -, hnew⟩ := h
    have hkey : pair.1 ∉ keys (ofPairs pairs) := by
      rw [ih hnodup]
      exact fun hmem => hnew _ hmem _ (List.mem_singleton.mpr rfl) rfl
    have hconcat : ofPairs (pairs ++ [pair]) = (ofPairs pairs).insert pair.1 pair.2 := by
      rw [ofPairs, List.foldl_append]
      rfl
    rw [hconcat, insert_of_not_mem hkey, ih hnodup]

end Json.Fields

namespace Json

/-- A result of two parts is there when both are. -/
theorem bind_eq_ok {α β ε : Type} {first : Except ε α} {next : α → Except ε β} {b : β} :
    (first >>= next) = .ok b ↔ ∃ a, first = .ok a ∧ next a = .ok b := by
  cases first with
  | error error => exact ⟨nofun, nofun⟩
  | ok a =>
    refine ⟨fun h => ⟨a, rfl, h⟩, ?_⟩
    rintro ⟨_, ha, h⟩
    cases ha
    exact h

end Json

namespace Json.Draft

/-- Without a tail fault a value is what it is. -/
theorem finish_eq_ok {α : Type} {value result : α} {tail : Option Fault} :
    finish value tail = .ok result ↔ tail = none ∧ value = result := by
  cases tail with
  | none => simp [finish]
  | some fault => simp [finish]

/-- Items have these values. -/
abbrev ItemsReadAs (items : List Draft) (values : List Json) : Prop :=
  List.Forall₂ (fun item value => item.toJson = .ok value) items values

/-- Fields have these values, under their names. -/
abbrev FieldsReadAs (fields : List (String × Draft)) (pairs : List (String × Json)) : Prop :=
  List.Forall₂ (fun field pair => field.1 = pair.1 ∧ field.2.toJson = .ok pair.2) fields pairs

/-- The names of fields are those of their values. -/
theorem FieldsReadAs.names_eq {fields : List (String × Draft)} {pairs : List (String × Json)}
    (h : FieldsReadAs fields pairs) : pairs.map Prod.fst = fields.map Prod.fst := by
  induction h with
  | nil => rfl
  | cons hfirst _ ih => rw [List.map_cons, List.map_cons, hfirst.1, ih]

/-- Items have values when each of them has one. -/
theorem toItems_eq_ok {items : List Draft} {values : List Json} :
    toItems items = .ok values ↔ ItemsReadAs items values := by
  induction items generalizing values with
  | nil =>
    rw [toItems]
    constructor
    · intro h
      cases h
      exact .nil
    · intro h
      cases h
      rfl
  | cons item rest ih =>
    simp only [toItems, bind_eq_ok, ih]
    constructor
    · rintro ⟨value, hvalue, others, hothers, h⟩
      cases h
      exact .cons hvalue hothers
    · intro h
      cases h with
      | cons hvalue hothers => exact ⟨_, hvalue, _, hothers, rfl⟩

/-- Fields have values, under their names, when each of them has one. -/
theorem toPairs_eq_ok {fields : List (String × Draft)} {pairs : List (String × Json)} :
    toPairs fields = .ok pairs ↔ FieldsReadAs fields pairs := by
  induction fields generalizing pairs with
  | nil =>
    rw [toPairs]
    constructor
    · intro h
      cases h
      exact .nil
    · intro h
      cases h
      rfl
  | cons field rest ih =>
    simp only [toPairs, bind_eq_ok, ih]
    constructor
    · rintro ⟨value, hvalue, others, hothers, h⟩
      cases h
      exact .cons ⟨rfl, hvalue⟩ hothers
    · intro h
      cases h with
      | @cons _ pair _ others hpair hothers =>
        obtain ⟨name, value⟩ := pair
        obtain ⟨rfl, hvalue⟩ := hpair
        exact ⟨value, hvalue, others, hothers, rfl⟩

/-- How the values of drafts are composed: a draft without faults has a value of its kind. -/
inductive ReadsAs : Draft → Json → Prop where
  | null : ReadsAs .null .null
  | bool (b : Bool) : ReadsAs (.bool b) (.bool b)
  | num (n : Number) : ReadsAs (.num n) (.num n)
  | str (s : String) : ReadsAs (.str s) (.str s)
  | arr {items : List Draft} {values : List Json} :
      ItemsReadAs items values → ReadsAs (.arr items none) (.arr values)
  | obj {fields : List (String × Draft)} {pairs : List (String × Json)} :
      FieldsReadAs fields pairs → ReadsAs (.obj fields none) (.obj (Fields.ofPairs pairs))

theorem readsAs_of_toJson {draft : Draft} {value : Json} (h : draft.toJson = .ok value) :
    ReadsAs draft value := by
  cases draft with
  | arr items tail =>
    rw [toJson, bind_eq_ok] at h
    obtain ⟨values, hvalues, h⟩ := h
    obtain ⟨rfl, rfl⟩ := finish_eq_ok.mp h
    exact .arr (toItems_eq_ok.mp hvalues)
  | obj fields tail =>
    rw [toJson, bind_eq_ok] at h
    obtain ⟨pairs, hpairs, h⟩ := h
    obtain ⟨rfl, rfl⟩ := finish_eq_ok.mp h
    exact .obj (toPairs_eq_ok.mp hpairs)
  | null | bool | num | str =>
    rw [toJson] at h
    cases h
    constructor
  | cut fault =>
    rw [toJson] at h
    cases h

end Json.Draft

end RichDoc
