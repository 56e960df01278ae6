import RichDoc.Proofs.Doc.Loading
import RichDoc.Proofs.Doc.Regular
import Mathlib.Data.List.Forall2
import Mathlib.Data.List.Induction

/-!
# Mark sets

The rank of a mark stands for its type. Marks that are added one after another become a set that is
ordered by rank and holds for each type the last mark of it, up to equality. A set that has this
order stays as it is, and which set comes out does not depend on the order in which the marks are
added unless two of one type differ.
-/

namespace RichDoc

namespace Mark

/-! ### Adding a mark -/

/-- The ranks of marks are strictly increasing. -/
def Ascending (marks : List Mark) : Prop :=
  marks.Pairwise fun a b => a.type.rank < b.type.rank

theorem same_refl (mark : Mark) : mark.same mark = true := by
  simp [same, Attrs.same, Attrs.isSame]

theorem typeName_eq_of_same {a b : Mark} (h : a.same b = true) : a.typeName = b.typeName :=
  beq_iff_eq.mp (Bool.and_eq_true_iff.mp h).1

/-- Behind a mark that has been placed come the others without those of its type. -/
theorem place_true_sublist (mark : Mark) (marks : List Mark) :
    (mark.place marks true).Sublist marks := by
  induction marks with
  | nil => exact .slnil
  | cons first rest ih =>
    rw [place]
    split
    · exact ih.cons first
    · exact ih.cons_cons first

/-- What is equal to the added mark takes its place, and marks of other types stay. -/
theorem mem_addToSet_iff {mark other : Mark} {marks : List Mark}
    (h : other.typeName ≠ mark.typeName) : other ∈ mark.addToSet marks ↔ other ∈ marks := by
  rw [addToSet]
  split
  · rfl
  · rw [mem_place_iff, and_iff_left h, or_iff_right]
    rintro ⟨-, rfl⟩
    exact h rfl

/-- The added mark, or one that is equal to it, is in the set. -/
theorem exists_same_addToSet (mark : Mark) (marks : List Mark) :
    ∃ other ∈ mark.addToSet marks, other.same mark = true := by
  rw [addToSet]
  split
  · rename_i hany
    exact List.any_eq_true.mp hany
  · exact ⟨mark, mem_place_iff.mpr (Or.inl ⟨rfl, rfl⟩), same_refl mark⟩

section

variable {schema : Schema} {mark : Mark} {marks set : List Mark}

theorem ascending_place (hs : schema.Ranks) (hset : ∀ other ∈ set, schema.Offers other)
    (hm : schema.Offers mark) (h : Ascending set) : Ascending (mark.place set false) := by
  induction set with
  | nil => exact List.pairwise_singleton _ mark
  | cons first rest ih =>
    obtain ⟨hfirst, hrest⟩ := List.forall_mem_cons.mp hset
    obtain ⟨hless, hasc⟩ := List.pairwise_cons.mp h
    rw [place]
    by_cases hname : first.typeName = mark.typeName
    · rw [if_pos hname]
      exact ih hrest hasc
    · rw [if_neg hname]
      split
      · rename_i hbefore
        have hrank : mark.type.rank < first.type.rank := by simpa using hbefore
        have hsub := place_true_sublist mark rest
        refine .cons (List.forall_mem_cons.mpr ⟨hrank, fun other hother => ?_⟩)
          (.cons (fun other hother => hless other (hsub.subset hother)) (hasc.sublist hsub))
        exact Nat.lt_trans hrank (hless other (hsub.subset hother))
      · rename_i hbehind
        have hle : first.type.rank ≤ mark.type.rank := by simpa using hbehind
        have hrank := Nat.lt_of_le_of_ne hle (hs.rank_ne hfirst hm hname)
        refine .cons (fun other hother => ?_) (ih hrest hasc)
        rcases mem_place_iff.mp hother with ⟨-, rfl⟩ | ⟨hother, -⟩
        · exact hrank
        · exact hless other hother

/-- Adding a mark keeps the order. -/
theorem ascending_addToSet (hs : schema.Ranks) (hset : ∀ other ∈ set, schema.Offers other)
    (hm : schema.Offers mark) (h : Ascending set) : Ascending (mark.addToSet set) := by
  rw [addToSet]
  split
  · exact h
  · exact ascending_place hs hset hm h

/-- A set in order holds one mark of a type. -/
theorem Ascending.eq_of_typeName (h : Ascending set) (hs : schema.Ranks)
    (hset : ∀ other ∈ set, schema.Offers other) {a b : Mark} (ha : a ∈ set) (hb : b ∈ set)
    (hname : a.typeName = b.typeName) : a = b := by
  have hnodup : (set.map fun mark => mark.type.rank).Nodup :=
    (List.pairwise_map.mpr h).imp Nat.ne_of_lt
  have hrank := congrArg MarkType.rank (hs.type_eq_of_typeName (hset a ha) (hset b hb) hname)
  exact List.inj_on_of_nodup_map hnodup ha hb hrank

/-- In a set that is in order, what has the type of the added mark is equal to it. -/
theorem same_of_mem_addToSet (hs : schema.Ranks) (hset : ∀ other ∈ set, schema.Offers other)
    (hm : schema.Offers mark) (h : Ascending set) {other : Mark}
    (hother : other ∈ mark.addToSet set) (hname : other.typeName = mark.typeName) :
    other.same mark = true := by
  obtain ⟨found, hfound, hsame⟩ := exists_same_addToSet mark set
  have hoffers : ∀ x ∈ mark.addToSet set, schema.Offers x := fun x hx =>
    (mem_addToSet hx).elim (fun he => he ▸ hm) (hset x)
  have he := (ascending_addToSet hs hset hm h).eq_of_typeName hs hoffers hother hfound
    (hname.trans (typeName_eq_of_same hsame).symm)
  exact he ▸ hsame

/-! ### The set of some marks -/

/-- A set normalizes some marks: it is in order, it has their types, and the mark of each type is
equal to the last one of that type. -/
structure Normalizes (marks set : List Mark) : Prop where
  ascending : Ascending set
  types : ∀ type, (∃ mark ∈ set, mark.type = type) ↔ ∃ mark ∈ marks, mark.type = type
  last : ∀ mark ∈ set, ∃ last,
    (marks.filter fun other => other.typeName == mark.typeName).getLast? = some last ∧
      mark.same last = true

/-- A set in order normalizes itself. -/
theorem Ascending.normalizes (h : Ascending set) (hs : schema.Ranks)
    (hset : ∀ other ∈ set, schema.Offers other) : Normalizes set set := by
  refine ⟨h, fun _ => Iff.rfl, fun mark hmark => ?_⟩
  have hmem : mark ∈ set.filter fun other => other.typeName == mark.typeName :=
    List.mem_filter.mpr ⟨hmark, beq_self_eq_true _⟩
  obtain ⟨last, hlast⟩ := Option.isSome_iff_exists.mp
    (List.getLast?_isSome.mpr (List.ne_nil_of_mem hmem))
  obtain ⟨hmemlast, hname⟩ := List.mem_filter.mp (List.mem_of_getLast? hlast)
  obtain rfl := h.eq_of_typeName hs hset hmemlast hmark (beq_iff_eq.mp hname)
  exact ⟨last, hlast, same_refl last⟩

/-- One more mark is added. -/
theorem Normalizes.concat (h : Normalizes marks set) (hs : schema.Ranks)
    (hset : ∀ other ∈ set, schema.Offers other) (hm : schema.Offers mark) :
    Normalizes (marks ++ [mark]) (mark.addToSet set) := by
  refine ⟨ascending_addToSet hs hset hm h.ascending, fun type => ?_, fun other hother => ?_⟩
  · obtain ⟨found, hfound, hfoundSame⟩ := exists_same_addToSet mark set
    have hname := typeName_eq_of_same hfoundSame
    have hoffers : schema.Offers found :=
      (mem_addToSet hfound).elim (fun he => he ▸ hm) (hset found)
    have hnew : (∃ other ∈ marks ++ [mark], other.type = type) ↔
        (∃ other ∈ set, other.type = type) ∨ mark.type = type := by
      simp only [h.types, List.mem_append, List.mem_singleton, or_and_right, exists_or,
        exists_eq_left]
    rw [hnew]
    constructor
    · rintro ⟨other, hother, rfl⟩
      by_cases he : other.typeName = mark.typeName
      · have hoffers := (mem_addToSet hother).elim (fun he => he ▸ hm) (hset other)
        exact Or.inr (hs.type_eq_of_typeName hoffers hm he).symm
      · exact Or.inl ⟨other, (mem_addToSet_iff he).mp hother, rfl⟩
    · rintro (⟨other, hother, rfl⟩ | rfl)
      · by_cases he : other.typeName = mark.typeName
        · exact ⟨found, hfound,
            hs.type_eq_of_typeName hoffers (hset other hother) (hname.trans he.symm)⟩
        · exact ⟨other, (mem_addToSet_iff he).mpr hother, rfl⟩
      · exact ⟨found, hfound, hs.type_eq_of_typeName hoffers hm hname⟩
  · rw [List.filter_append, List.getLast?_append]
    by_cases he : other.typeName = mark.typeName
    · rw [List.filter_cons_of_pos (by simpa using he.symm)]
      exact ⟨mark, rfl, same_of_mem_addToSet hs hset hm h.ascending hother he⟩
    · rw [List.filter_cons_of_neg (by simpa using Ne.symm he)]
      exact h.last other ((mem_addToSet_iff he).mp hother)

theorem setOf_concat (marks : List Mark) (mark : Mark) :
    setOf (marks ++ [mark]) = mark.addToSet (setOf marks) := by
  rw [setOf, List.foldl_append]
  rfl

/-- The set of some marks normalizes them. -/
theorem setOf_normalizes (hs : schema.Ranks) (hmarks : ∀ mark ∈ marks, schema.Offers mark) :
    Normalizes marks (setOf marks) := by
  induction marks using List.reverseRecOn with
  | nil => exact ⟨.nil, fun _ => Iff.rfl, List.forall_mem_nil _⟩
  | append_singleton marks mark ih =>
    obtain ⟨hmarks, hmark⟩ := List.forall_mem_append.mp hmarks
    rw [setOf_concat]
    exact (ih hmarks).concat hs (fun other hother => hmarks other (mem_setOf hother))
      (List.forall_mem_singleton.mp hmark)

/-- A mark that comes last is placed last. -/
theorem place_eq_concat (h : ∀ other ∈ set, other.type.rank < mark.type.rank)
    (hname : ∀ other ∈ set, other.typeName ≠ mark.typeName) :
    mark.place set false = set ++ [mark] := by
  induction set with
  | nil => rfl
  | cons first rest ih =>
    obtain ⟨hfirst, hrest⟩ := List.forall_mem_cons.mp h
    obtain ⟨hne, hnames⟩ := List.forall_mem_cons.mp hname
    have hbehind : ¬(!false && decide (mark.type.rank < first.type.rank)) = true := by
      simpa using Nat.le_of_lt hfirst
    rw [place, if_neg hne, if_neg hbehind, ih hrest hnames, List.cons_append]

/-- A set in order is the set of its marks. -/
theorem Ascending.setOf_eq (h : Ascending set) (hs : schema.Ranks)
    (hset : ∀ other ∈ set, schema.Offers other) : setOf set = set := by
  induction set using List.reverseRecOn with
  | nil => rfl
  | append_singleton set mark ih =>
    obtain ⟨hasc, -, hless⟩ := List.pairwise_append.mp h
    obtain ⟨hset, hmark⟩ := List.forall_mem_append.mp hset
    have hrank : ∀ other ∈ set, other.type.rank < mark.type.rank := fun other hother =>
      hless other hother mark (List.mem_singleton.mpr rfl)
    have hname : ∀ other ∈ set, other.typeName ≠ mark.typeName := fun other hother he =>
      Nat.ne_of_lt (hrank other hother) (congrArg MarkType.rank
        (hs.type_eq_of_typeName (hset other hother) (List.forall_mem_singleton.mp hmark) he))
    have hany : ¬(set.any fun other => other.same mark) = true := by
      rw [List.any_eq_true]
      rintro ⟨other, hother, hsame⟩
      exact hname other hother (typeName_eq_of_same hsame)
    rw [setOf_concat, ih hasc hset, addToSet, if_neg hany, place_eq_concat hrank hname]

/-- Sets in order with the same types have the same types at the same places. -/
theorem Ascending.forall₂_rank {other : List Mark} (h : Ascending set) (h' : Ascending other)
    (htypes : ∀ type, (∃ mark ∈ set, mark.type = type) ↔ ∃ mark ∈ other, mark.type = type) :
    List.Forall₂ (fun a b => a.type.rank = b.type.rank) set other := by
  have hsorted : (set.map fun mark => mark.type.rank).Pairwise (· < ·) := List.pairwise_map.mpr h
  have hsorted' : (other.map fun mark => mark.type.rank).Pairwise (· < ·) :=
    List.pairwise_map.mpr h'
  have hmem : ∀ rank, rank ∈ set.map (fun mark => mark.type.rank) ↔
      rank ∈ other.map fun mark => mark.type.rank := by
    intro rank
    rw [List.mem_map, List.mem_map]
    constructor
    · rintro ⟨mark, hmark, rfl⟩
      obtain ⟨found, hfound, he⟩ := (htypes mark.type).mp ⟨mark, hmark, rfl⟩
      exact ⟨found, hfound, congrArg MarkType.rank he⟩
    · rintro ⟨mark, hmark, rfl⟩
      obtain ⟨found, hfound, he⟩ := (htypes mark.type).mpr ⟨mark, hmark, rfl⟩
      exact ⟨found, hfound, congrArg MarkType.rank he⟩
  have hperm := (List.perm_ext_iff_of_nodup (hsorted.imp Nat.ne_of_lt)
    (hsorted'.imp Nat.ne_of_lt)).mpr hmem
  have heq := hperm.eq_of_pairwise
    (fun _ _ _ _ hlt hgt => absurd hlt (Nat.lt_asymm hgt)) hsorted hsorted'
  have hall := List.forall₂_eq_eq_eq ▸ heq
  rw [List.forall₂_map_left_iff, List.forall₂_map_right_iff] at hall
  exact hall

/-- The order of marks does not matter for their set where those of one type are equal. -/
theorem setOf_perm {others : List Mark} (hs : schema.Ranks)
    (hmarks : ∀ mark ∈ marks, schema.Offers mark) (hperm : marks.Perm others)
    (hsame : ∀ a ∈ marks, ∀ b ∈ marks, a.type = b.type → a.same b = true) :
    List.Forall₂ (fun a b => a.same b = true) (setOf marks) (setOf others) := by
  have hothers : ∀ mark ∈ others, schema.Offers mark := fun mark hmark =>
    hmarks mark (hperm.mem_iff.mpr hmark)
  have hset := setOf_normalizes hs hmarks
  have hset' := setOf_normalizes hs hothers
  have htypes : ∀ type, (∃ mark ∈ setOf marks, mark.type = type) ↔
      ∃ mark ∈ setOf others, mark.type = type := fun type => by
    rw [hset.types, hset'.types]
    exact exists_congr fun mark => and_congr_left fun _ => hperm.mem_iff
  obtain ⟨hlength, hranks⟩ := List.forall₂_iff_zip.mp
    (hset.ascending.forall₂_rank hset'.ascending htypes)
  refine List.forall₂_iff_zip.mpr ⟨hlength, fun {a b} hzip => ?_⟩
  obtain ⟨ha, hb⟩ := List.of_mem_zip hzip
  have ha := mem_setOf ha
  have hb := hperm.mem_iff.mpr (mem_setOf hb)
  exact hsame a ha b hb (hs.type_eq_of_rank (hmarks a ha) (hmarks b hb) (hranks hzip))

end

/-! ### Normal sets -/

/-- Marks of one schema become a set in which the ranks are strictly increasing, the types are those
of the marks, and the mark of each type is equal to the last one of that type. Such a set is the set
of its own marks, one more mark makes such a set of it, and the order of the marks does not matter
where those of one type are equal. -/
theorem setOf_normal {nodes : List NodeDecl} {decls : List MarkDecl} {schema : Schema}
    (h : Schema.ofDecls nodes decls = .ok schema) :
    (∀ marks, (∀ mark ∈ marks, schema.Offers mark) →
        Normalizes marks (setOf marks) ∧ setOf (setOf marks) = setOf marks) ∧
      (∀ set mark, (∀ other ∈ set, schema.Offers other) → Ascending set → schema.Offers mark →
        Normalizes (set ++ [mark]) (mark.addToSet set)) ∧
      ∀ marks others, (∀ mark ∈ marks, schema.Offers mark) → marks.Perm others →
        (∀ a ∈ marks, ∀ b ∈ marks, a.type = b.type → a.same b = true) →
        List.Forall₂ (fun a b => a.same b = true) (setOf marks) (setOf others) := by
  have hs := (Schema.regular_of_ofDecls h).marks
  refine ⟨fun marks hmarks => ?_, fun set mark hset hasc hmark => ?_,
    fun marks others hmarks hperm hsame => setOf_perm hs hmarks hperm hsame⟩
  · have hset := setOf_normalizes hs hmarks
    exact ⟨hset, hset.ascending.setOf_eq hs fun mark hmark => hmarks mark (mem_setOf hmark)⟩
  · exact (hasc.normalizes hs hset).concat hs hset hmark

/-- A link, which has to have an address, and emphasis, in the order of their ranks. -/
def sampleTypes : MarkType × MarkType := (⟨"link", 0, true, [⟨"href", none⟩]⟩, ⟨"em", 1, true, []⟩)

/-- Emphasis and a link, each added twice. -/
def sampleMarks : List Mark :=
  [⟨sampleTypes.2, ⟨0, []⟩⟩, ⟨sampleTypes.1, ⟨1, [("href", .str "a")]⟩⟩,
    ⟨sampleTypes.2, ⟨2, []⟩⟩, ⟨sampleTypes.1, ⟨3, [("href", .str "b")]⟩⟩]

/-- The link comes first although it is added later. Of the links the second one is left, and of the
equal marks the first one. Without the second link the order does not matter. -/
theorem setOf_normal_sample :
    let decls : List MarkDecl := [⟨sampleTypes.1, none⟩, ⟨sampleTypes.2, none⟩]
    let schema : Schema := ⟨[⟨⟨textTypeName, none, none, true, []⟩, none⟩], decls⟩
    Schema.ofDecls schema.nodes decls = .ok schema ∧
      (∀ mark ∈ sampleMarks, schema.Offers mark) ∧
      Normalizes sampleMarks (setOf sampleMarks) ∧
      (setOf sampleMarks).map (fun mark => mark.attrs.id) = [3, 0] ∧
      (∀ a ∈ sampleMarks.take 3, ∀ b ∈ sampleMarks.take 3, a.type = b.type → a.same b = true) ∧
      List.Forall₂ (fun a b => a.same b = true) (setOf (sampleMarks.take 3))
        (setOf (sampleMarks.take 3).reverse) ∧
      ∀ mark ∈ sampleMarks, Normalizes (setOf sampleMarks ++ [mark])
        (mark.addToSet (setOf sampleMarks)) := by
  intro decls schema
  have hschema : Schema.ofDecls schema.nodes decls = .ok schema := rfl
  have hoffers : ∀ mark ∈ sampleMarks, schema.Offers mark := by
    simp [sampleMarks, Schema.Offers, schema, decls]
  have hsame : ∀ a ∈ sampleMarks.take 3, ∀ b ∈ sampleMarks.take 3, a.type = b.type →
      a.same b = true := by
    simp [sampleMarks, sampleTypes, Mark.same, Attrs.same, Attrs.isSame, typeName, Json.same,
      Json.sameFields]
  obtain ⟨hset, hadd, hperm⟩ := setOf_normal hschema
  have hnormal := hset sampleMarks hoffers
  refine ⟨hschema, hoffers, hnormal.1, rfl, hsame, ?_, fun mark hmark => ?_⟩
  · exact hperm _ _ (fun mark hmark => hoffers mark (List.mem_of_mem_take hmark))
      (List.reverse_perm _).symm hsame
  · exact hadd _ _ (fun other hother => hoffers other (mem_setOf hother)) hnormal.1.ascending
      (hoffers mark hmark)

end Mark

end RichDoc
