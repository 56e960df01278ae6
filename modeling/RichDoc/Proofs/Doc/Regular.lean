import RichDoc.Schema
import Mathlib.Data.List.Nodup

/-!
# Schemas that follow the rules

A schema of any declarations declares no name twice, numbers its mark types in their order, and has
a type for text without attributes. So a declared type is found by its name, and the rank of a mark
stands for its type.
-/

namespace RichDoc

/-! ### Declarations -/

/-- No name is repeated, and none has been seen before. -/
theorem firstRepeated_eq_none {seen names : List String} (h : firstRepeated seen names = none) :
    names.Nodup ∧ ∀ name ∈ names, name ∉ seen := by
  induction names generalizing seen with
  | nil => exact ⟨List.nodup_nil, List.forall_mem_nil _⟩
  | cons name rest ih =>
    rw [firstRepeated] at h
    split at h
    · cases h
    · rename_i hseen
      obtain ⟨hrest, hnew⟩ := ih h
      refine ⟨List.nodup_cons.mpr ⟨fun hmem => hnew name hmem List.mem_cons_self, hrest⟩,
        List.forall_mem_cons.mpr ⟨fun hmem => hseen (List.contains_iff_mem.mpr hmem), ?_⟩⟩
      exact fun other hmem hother => hnew other hmem (List.mem_cons_of_mem _ hother)

/-- Numbering mark types leaves their names. -/
theorem names_rankFrom (rank : Nat) (marks : List MarkDecl) :
    (rankFrom rank marks).map (fun decl => decl.type.name) =
      marks.map fun decl => decl.type.name := by
  induction marks generalizing rank with
  | nil => rfl
  | cons decl rest ih =>
    rw [rankFrom, List.map_cons, List.map_cons, ih]

/-- Mark types are numbered in order. -/
theorem ranks_rankFrom (rank : Nat) (marks : List MarkDecl) :
    (rankFrom rank marks).map (fun decl => decl.type.rank) = List.range' rank marks.length := by
  induction marks generalizing rank with
  | nil => rfl
  | cons decl rest ih =>
    rw [rankFrom, List.map_cons, ih, List.length_cons, List.range'_succ]

/-- Of items with different names, the one with a name is found by it. -/
theorem find?_of_nodup {α : Type} {name : α → String} {items : List α} {item : α}
    (h : (items.map name).Nodup) (hmem : item ∈ items) :
    items.find? (fun other => name other == name item) = some item := by
  induction items with
  | nil => cases hmem
  | cons first rest ih =>
    rw [List.map_cons, List.nodup_cons] at h
    rcases List.mem_cons.mp hmem with rfl | hmem
    · exact List.find?_cons_of_pos (beq_self_eq_true _)
    · have hne : ¬(name first == name item) = true := fun heq =>
        h.1 (List.mem_map.mpr ⟨item, hmem, (beq_iff_eq.mp heq).symm⟩)
      exact (List.find?_cons_of_neg (p := fun other => name other == name item) hne).trans
        (ih h.2 hmem)

/-! ### What the rules give -/

namespace Schema

/-- The type of a mark is one that the schema declares. -/
def Offers (schema : Schema) (mark : Mark) : Prop :=
  ∃ decl ∈ schema.marks, decl.type = mark.type

/-- Among the marks that a schema offers, the rank and the name of a type tell which type it is. -/
structure Ranks (schema : Schema) : Prop where
  names : (schema.marks.map fun decl => decl.type.name).Nodup
  ranks : (schema.marks.map fun decl => decl.type.rank).Nodup

/-- What holds of every schema of declarations. -/
structure Regular (schema : Schema) : Prop where
  nodes : (schema.nodes.map fun decl => decl.type.name).Nodup
  marks : schema.Ranks
  text : ∃ type, schema.nodeType? textTypeName = some type ∧ type.attrs = []

theorem regular_of_ofDecls {nodes : List NodeDecl} {marks : List MarkDecl} {schema : Schema}
    (h : ofDecls nodes marks = .ok schema) : schema.Regular := by
  unfold ofDecls at h
  split at h
  · cases h
  · rename_i hnodes
    split at h
    · cases h
    · rename_i hmarks
      dsimp only at h
      split at h
      · cases h
      · rename_i text htext
        split at h
        · rename_i hattrs
          cases h
          refine ⟨(firstRepeated_eq_none hnodes).1, ⟨?_, ?_⟩, text, htext,
            List.isEmpty_iff.mp hattrs⟩
          · rw [names_rankFrom]
            exact (firstRepeated_eq_none hmarks).1
          · rw [ranks_rankFrom]
            exact List.nodup_range'
        · cases h

namespace Regular

variable {schema : Schema}

theorem nodeType?_eq (h : schema.Regular) {decl : NodeDecl} (hd : decl ∈ schema.nodes) :
    schema.nodeType? decl.type.name = some decl.type := by
  rw [nodeType?, find?_of_nodup h.nodes hd]
  rfl

theorem markType?_eq (h : schema.Regular) {decl : MarkDecl} (hd : decl ∈ schema.marks) :
    schema.markType? decl.type.name = some decl.type := by
  rw [markType?, find?_of_nodup h.marks.names hd]
  rfl

end Regular

namespace Ranks

variable {schema : Schema} {a b : Mark}

/-- One name is one type. -/
theorem type_eq_of_typeName (hs : schema.Ranks) (ha : schema.Offers a) (hb : schema.Offers b)
    (h : a.typeName = b.typeName) : a.type = b.type := by
  obtain ⟨decl, hdecl, hda⟩ := ha
  obtain ⟨other, hother, hdb⟩ := hb
  have hname : decl.type.name = other.type.name := by
    rw [hda, hdb]
    exact h
  rw [← hda, ← hdb, List.inj_on_of_nodup_map hs.names hdecl hother hname]

/-- One rank is one type. -/
theorem type_eq_of_rank (hs : schema.Ranks) (ha : schema.Offers a) (hb : schema.Offers b)
    (h : a.type.rank = b.type.rank) : a.type = b.type := by
  obtain ⟨decl, hdecl, hda⟩ := ha
  obtain ⟨other, hother, hdb⟩ := hb
  have hrank : decl.type.rank = other.type.rank := by rw [hda, hdb, h]
  rw [← hda, ← hdb, List.inj_on_of_nodup_map hs.ranks hdecl hother hrank]

/-- Marks of different types have different ranks. -/
theorem rank_ne (hs : schema.Ranks) (ha : schema.Offers a) (hb : schema.Offers b)
    (h : a.typeName ≠ b.typeName) : a.type.rank ≠ b.type.rank := fun he =>
  h (congrArg MarkType.name (hs.type_eq_of_rank ha hb he))

end Ranks

end Schema

end RichDoc
