import RichDoc.Schema
import Mathlib.Data.List.Induction

/-!
# Declared attributes

The attributes of a new node or mark are those that its type declares. Each stands at the place of
its first declaration and has the value that is given for it, or else the default of its last
declaration. The first declaration that has neither a given value nor a default is an error.
-/

namespace RichDoc

open Json (Fields)

namespace Json.Fields

/-- A field that is inserted is found, and the other fields are found as before. -/
theorem get?_insert (fields : Fields) (key : String) (value : Json) (other : String) :
    (fields.insert key value).get? other =
      if key = other then some value else fields.get? other := by
  induction fields with
  | nil => rfl
  | cons field rest ih =>
    obtain ⟨k, v⟩ := field
    rw [insert]
    split
    · rename_i hk
      subst hk
      rw [get?, get?]
      split <;> rfl
    · rename_i hk
      rw [get?, get?, ih]
      split
      · rename_i hother
        rw [if_neg fun he => hk (hother.trans he.symm)]
      · rfl

/-- The names of some fields are the first name and those of the rest. -/
theorem mem_keys_cons {key k : String} {v : Json} {rest : Fields} :
    key ∈ keys ((k, v) :: rest) ↔ key = k ∨ key ∈ keys rest := List.mem_cons

/-- A field that is inserted keeps its place, and a new one comes last. -/
theorem keys_insert (fields : Fields) (key : String) (value : Json) :
    (fields.insert key value).keys =
      if key ∈ fields.keys then fields.keys else fields.keys ++ [key] := by
  induction fields with
  | nil => rfl
  | cons field rest ih =>
    obtain ⟨k, v⟩ := field
    rw [insert]
    by_cases hk : k = key
    · rw [if_pos hk, if_pos (mem_keys_cons.mpr (Or.inl hk.symm))]
      rfl
    · rw [if_neg hk]
      have hmem : key ∈ keys ((k, v) :: rest) ↔ key ∈ keys rest :=
        mem_keys_cons.trans (or_iff_right (Ne.symm hk))
      show k :: keys (insert rest key value) = _
      rw [ih]
      by_cases hrest : key ∈ keys rest
      · rw [if_pos hrest, if_pos (hmem.mpr hrest)]
        rfl
      · rw [if_neg hrest, if_neg (mt hmem.mp hrest)]
        rfl

/-- A name is there if its field is found. -/
theorem mem_keys_iff {fields : Fields} {key : String} :
    key ∈ fields.keys ↔ fields.get? key ≠ none := by
  induction fields with
  | nil => exact iff_of_false List.not_mem_nil fun h => h rfl
  | cons field rest ih =>
    obtain ⟨k, v⟩ := field
    rw [get?]
    by_cases hk : k = key
    · rw [if_pos hk]
      exact iff_of_true (mem_keys_cons.mpr (Or.inl hk.symm)) (Option.some_ne_none v)
    · rw [if_neg hk, ← ih]
      exact mem_keys_cons.trans (or_iff_right (Ne.symm hk))

end Json.Fields

/-! ### Declared attributes -/

/-- The value of a declared attribute: the given one, or else the default. -/
def AttrDecl.value? (given : Option Fields) (decl : AttrDecl) : Option Json :=
  (given.bind fun fields => fields.get? decl.name).or decl.default

/-- Every declared attribute without a default is given. -/
def Gives (decls : List AttrDecl) (given : Option Fields) : Prop :=
  ∀ decl ∈ decls, decl.default = none → ∃ fields, given = some fields ∧ decl.name ∈ fields.keys

/-- The attributes are the declared ones, each at the place of its first declaration and with the
value that its last one has. -/
structure Resolves (decls : List AttrDecl) (given : Option Fields) (fields : Fields) : Prop where
  keys : fields.keys = (decls.map AttrDecl.name).eraseDups
  get? : ∀ key, fields.get? key =
    (decls.filter fun decl => decl.name == key).getLast?.bind (AttrDecl.value? given)

/-- The errors about attributes that have to be given and are not, in the order of their
declarations. -/
def missingAttributes (typeName : String) (decls : List AttrDecl) (given : Option Fields) :
    List Error :=
  (decls.filter fun decl => (decl.value? given).isNone).map fun decl =>
    .missingAttribute typeName decl.name

/-- A declared attribute has no value if it is neither given nor has a default. -/
theorem value?_eq_none_iff {given : Option Fields} {decl : AttrDecl} :
    decl.value? given = none ↔
      decl.default = none ∧ ¬∃ fields, given = some fields ∧ decl.name ∈ fields.keys := by
  rw [AttrDecl.value?, Option.or_eq_none_iff, And.comm]
  refine and_congr_right fun _ => ?_
  cases given with
  | none => exact iff_of_true rfl nofun
  | some fields =>
    rw [Option.bind_some]
    constructor
    · rintro hnone ⟨other, ⟨⟩, hmem⟩
      exact Json.Fields.mem_keys_iff.mp hmem hnone
    · intro hno
      by_contra hget
      exact hno ⟨fields, rfl, Json.Fields.mem_keys_iff.mpr hget⟩

/-- No attribute is missing if each that is declared is given or has a default. -/
theorem missingAttributes_eq_nil_iff {typeName : String} {decls : List AttrDecl}
    {given : Option Fields} :
    missingAttributes typeName decls given = [] ↔ Gives decls given := by
  rw [missingAttributes, List.map_eq_nil_iff, List.filter_eq_nil_iff]
  refine forall₂_congr fun decl _ => ?_
  rw [Option.isNone_iff_eq_none, value?_eq_none_iff, not_and, not_not]

/-- The attribute that is declared last is reported last. -/
theorem missingAttributes_concat (typeName : String) (decls : List AttrDecl) (decl : AttrDecl)
    (given : Option Fields) : missingAttributes typeName (decls ++ [decl]) given =
      missingAttributes typeName decls given ++
        match decl.value? given with
        | some _ => []
        | none => [.missingAttribute typeName decl.name] := by
  rw [missingAttributes, List.filter_append, List.map_append, List.filter_cons, List.filter_nil]
  cases decl.value? given <;> rfl

/-- One more declaration puts its attribute last, or gives it another value. -/
theorem Resolves.concat {decls : List AttrDecl} {decl : AttrDecl} {given : Option Fields}
    {fields : Fields} {value : Json} (h : Resolves decls given fields)
    (hv : decl.value? given = some value) :
    Resolves (decls ++ [decl]) given (fields.insert decl.name value) := by
  refine ⟨?_, fun key => ?_⟩
  · rw [Json.Fields.keys_insert, h.keys, List.map_append, List.eraseDups_append]
    by_cases hmem : decl.name ∈ decls.map AttrDecl.name
    · rw [if_pos (List.mem_eraseDups.mpr hmem)]
      have hnone : (List.map AttrDecl.name [decl]).removeAll (decls.map AttrDecl.name) = [] := by
        simp only [List.removeAll, List.map_cons, List.map_nil]
        rw [List.filter_cons_of_neg (by simpa using hmem), List.filter_nil]
      rw [hnone, List.eraseDups_nil, List.append_nil]
    · rw [if_neg (mt List.mem_eraseDups.mp hmem)]
      have hsingle : (List.map AttrDecl.name [decl]).removeAll (decls.map AttrDecl.name) =
          [decl.name] := by
        simp only [List.removeAll, List.map_cons, List.map_nil]
        rw [List.filter_cons_of_pos (by simpa using hmem), List.filter_nil]
      rw [hsingle]
      rfl
  · rw [Json.Fields.get?_insert, List.filter_append, List.getLast?_append]
    by_cases hkey : decl.name = key
    · subst hkey
      have hlast : [decl].filter (fun other => other.name == decl.name) = [decl] :=
        List.filter_cons_of_pos (beq_self_eq_true decl.name)
      rw [if_pos rfl, hlast]
      exact hv.symm
    · have hnone : [decl].filter (fun other => other.name == key) = [] :=
        List.filter_cons_of_neg (by simpa using hkey)
      rw [if_neg hkey, hnone]
      exact h.get? key

namespace Schema

/-- Attributes are resolved in the order in which they are declared. -/
theorem resolveFields_append (typeName : String) (given : Option Fields)
    (decls others : List AttrDecl) (built : Fields) :
    resolveFields typeName given (decls ++ others) built =
      (resolveFields typeName given decls built).bind
        fun built => resolveFields typeName given others built := by
  induction decls generalizing built with
  | nil => rfl
  | cons decl rest ih =>
    rw [List.cons_append, resolveFields, resolveFields]
    split
    · exact ih _
    · rfl

/-- One attribute is resolved to its value, or reported as missing. -/
theorem resolveFields_singleton (typeName : String) (given : Option Fields) (decl : AttrDecl)
    (built : Fields) : resolveFields typeName given [decl] built =
      match decl.value? given with
      | some value => .ok (built.insert decl.name value)
      | none => .error (.missingAttribute typeName decl.name) := by
  rw [resolveFields, AttrDecl.value?]
  cases (given.bind fun fields => fields.get? decl.name).or decl.default <;> rfl

/-- Resolving attributes ends with the declared ones, or else with the first that is missing. -/
theorem resolveFields_cases (typeName : String) (given : Option Fields) (decls : List AttrDecl) :
    (∃ fields, resolveFields typeName given decls [] = .ok fields ∧
        missingAttributes typeName decls given = [] ∧ Resolves decls given fields) ∨
      ∃ error, resolveFields typeName given decls [] = .error error ∧
        (missingAttributes typeName decls given).head? = some error := by
  induction decls using List.reverseRecOn with
  | nil => exact Or.inl ⟨[], rfl, rfl, rfl, fun _ => rfl⟩
  | append_singleton decls decl ih =>
    rw [resolveFields_append, missingAttributes_concat, List.head?_append]
    rcases ih with ⟨fields, hok, hnone, hfields⟩ | ⟨error, herror, hfirst⟩
    · rw [hok, hnone, Except.bind, resolveFields_singleton]
      cases hv : decl.value? given with
      | some value => exact Or.inl ⟨fields.insert decl.name value, rfl, rfl, hfields.concat hv⟩
      | none => exact Or.inr ⟨.missingAttribute typeName decl.name, rfl, rfl⟩
    · rw [herror, hfirst]
      exact Or.inr ⟨error, rfl, rfl⟩

end Schema

end RichDoc
