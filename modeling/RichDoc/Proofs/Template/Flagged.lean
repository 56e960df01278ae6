import RichDoc.Proofs.Doc.Tokens
import RichDoc.Template.Guard

/-!
# The places that the guard knows

An array in an attribute is flagged if it begins with a text and no array around it does. The scan
of a map lists the places of exactly these arrays. A guard finds a kept scan by the token of its
map, and since tokens tell the maps that were made apart, it hands out nothing but the scans of the
maps it is asked about, whatever requests it has answered before.
-/

namespace RichDoc

/-- A value and its place are reached from another value through arrays that do not begin with a
text. -/
inductive Within : Origin → Json → Origin → Json → Prop where
  | here (place value) : Within place value place value
  | item {outer items index item place value} : startsWithText items = false →
      items[index]? = some item → Within (outer.item index) item place value →
      Within outer (.arr items) place value

/-- At a place in the attributes of a source stands an array that begins with a text, and the
arrays around it do not. -/
def Flagged (sources : List Attrs) (place : Origin) : Prop :=
  ∃ attrs ∈ sources, ∃ field ∈ attrs.fields, ∃ items,
    Within ⟨attrs.id, field.1, []⟩ field.2 place (.arr items) ∧ startsWithText items = true

/-- An array that begins with a text is not left. -/
theorem Within.eq_of_startsWithText {outer place : Origin} {items : List Json} {found : Json}
    (h : Within outer (.arr items) place found) (hs : startsWithText items = true) :
    place = outer ∧ found = .arr items := by
  cases h with
  | here => exact ⟨rfl, rfl⟩
  | item hn => rw [hs] at hn; cases hn

mutual

/-- The scan of a value finds the flagged arrays in it. -/
theorem mem_scanValue (place : Origin) : (origin : Origin) → (value : Json) →
    (place ∈ scanValue origin value ↔
      ∃ items, Within origin value place (.arr items) ∧ startsWithText items = true)
  | origin, .arr items => by
    rw [scanValue]
    by_cases hs : startsWithText items = true
    · rw [if_pos hs, List.mem_singleton]
      constructor
      · rintro rfl
        exact ⟨items, .here _ _, hs⟩
      · rintro ⟨found, hw, -⟩
        exact (hw.eq_of_startsWithText hs).1
    · rw [if_neg hs, mem_scanItems place origin 0 items]
      have hn := Bool.eq_false_iff.mpr hs
      constructor
      · rintro ⟨index, item, hi, found, hw, hf⟩
        rw [Nat.zero_add] at hw
        exact ⟨found, .item hn hi hw, hf⟩
      · rintro ⟨found, hw, hf⟩
        cases hw with
        | here => exact absurd hf hs
        | @item _ _ index item _ _ _ hi hw =>
          rw [← Nat.zero_add index] at hw
          exact ⟨index, item, hi, found, hw, hf⟩
  | origin, .null | origin, .bool _ | origin, .num _ | origin, .str _ | origin, .obj _ => by
    rw [scanValue]
    · simp only [List.not_mem_nil, false_iff]
      rintro ⟨items, hw, -⟩
      cases hw
    · simp

/-- The scan of items finds the flagged arrays in each. -/
theorem mem_scanItems (place : Origin) (origin : Origin) : (first : Nat) → (items : List Json) →
    (place ∈ scanItems origin first items ↔
      ∃ index item, items[index]? = some item ∧ ∃ found,
        Within (origin.item (first + index)) item place (.arr found) ∧
          startsWithText found = true)
  | first, [] => by simp [scanItems]
  | first, item :: rest => by
    rw [scanItems, List.mem_append, mem_scanValue place _ item,
      mem_scanItems place origin (first + 1) rest]
    constructor
    · rintro (⟨found, hw, hf⟩ | ⟨index, other, hi, found, hw, hf⟩)
      · exact ⟨0, item, rfl, found, hw, hf⟩
      · refine ⟨index + 1, other, hi, found, ?_, hf⟩
        rwa [Nat.add_assoc, Nat.add_comm 1] at hw
    · rintro ⟨index, other, hi, found, hw, hf⟩
      cases index with
      | zero =>
        cases hi
        exact Or.inl ⟨found, hw, hf⟩
      | succ index =>
        refine Or.inr ⟨index, other, hi, found, ?_, hf⟩
        rwa [Nat.add_assoc, Nat.add_comm 1]

end

/-- The scan of a map finds its flagged arrays. -/
theorem mem_scan (place : Origin) (attrs : Attrs) :
    place ∈ Suspicious.scan attrs ↔ Flagged [attrs] place := by
  simp only [Suspicious.scan, List.mem_flatMap, mem_scanValue, Flagged, List.mem_singleton,
    exists_eq_left]

namespace Guard

/-- A map is empty, its scan is kept already, or it is scanned and the scan is kept. -/
theorem suspicious_cases (guard : Guard) (attrs : Attrs) :
    attrs.fields = [] ∧ guard.suspicious attrs = ([], guard) ∨
      (∃ entry ∈ guard.entries, entry.isOf attrs = true ∧
        guard.suspicious attrs = (entry.found, guard)) ∨
      attrs.fields ≠ [] ∧ (∀ entry ∈ guard.entries, entry.isOf attrs = false) ∧
        guard.suspicious attrs = (Suspicious.scan attrs,
          ⟨guard.cleared ++ [⟨attrs, Suspicious.scan attrs, true⟩]⟩) := by
  unfold suspicious
  split
  · rename_i hempty
    exact Or.inl ⟨List.isEmpty_iff.mp hempty, rfl⟩
  · rename_i hfields
    split
    · rename_i entry hfound
      have hof := List.find?_some hfound
      exact Or.inr (Or.inl ⟨entry, List.mem_of_find?_eq_some hfound, hof, rfl⟩)
    · rename_i hnone
      refine Or.inr (Or.inr ⟨fun he => hfields (List.isEmpty_iff.mpr he), fun entry hm => ?_, rfl⟩)
      exact Bool.eq_false_iff.mpr (List.find?_eq_none.mp hnone entry hm)

theorem cleared_sublist (guard : Guard) : guard.cleared.Sublist guard.entries := by
  unfold cleared
  split
  · exact List.filter_sublist
  · exact List.Sublist.refl _

/-- All that is kept are scans of maps that were made. -/
def Faithful (pool : Pool) (guard : Guard) : Prop :=
  ∀ entry ∈ guard.entries, pool.has entry.map ∧ entry.found = Suspicious.scan entry.map

/-- A guard that has answered requests about maps that were made, and has been told of those that
nobody holds any more. -/
inductive Reachable (pool : Pool) : Guard → Prop where
  | empty : Reachable pool .empty
  | suspicious {guard attrs} : pool.has attrs → Reachable pool guard →
      Reachable pool (guard.suspicious attrs).2
  | release {guard} (id : Nat) : Reachable pool guard → Reachable pool (guard.release id)

section

variable {pool : Pool} {guard : Guard} {attrs : Attrs} {sources : List Attrs}

/-- The scan that is kept under the token of a map is that of the map. -/
theorem Faithful.found_eq (h : guard.Faithful pool) (ha : pool.has attrs) {entry : GuardEntry}
    (he : entry ∈ guard.entries) (hof : entry.isOf attrs = true) :
    entry.found = Suspicious.scan attrs := by
  obtain ⟨hentry, hfound⟩ := h entry he
  rw [hfound, pool.apart entry.map attrs hentry ha (eq_of_beq hof)]

/-- A guard answers a request with the scan, kept or new. -/
theorem Faithful.suspicious (h : guard.Faithful pool) (ha : pool.has attrs) :
    (guard.suspicious attrs).1 = Suspicious.scan attrs ∧
      (guard.suspicious attrs).2.Faithful pool := by
  obtain ⟨hempty, hrun⟩ | ⟨entry, hentry, hof, hrun⟩ | ⟨-, -, hrun⟩ := guard.suspicious_cases attrs
  · rw [hrun, Suspicious.scan, hempty]
    exact ⟨rfl, h⟩
  · rw [hrun]
    exact ⟨h.found_eq ha hentry hof, h⟩
  · rw [hrun]
    refine ⟨rfl, fun entry hmem => ?_⟩
    rcases List.mem_append.mp hmem with hmem | hmem
    · exact h entry (guard.cleared_sublist.subset hmem)
    · rw [List.mem_singleton.mp hmem]
      exact ⟨ha, rfl⟩

theorem Faithful.release (h : guard.Faithful pool) (id : Nat) :
    (guard.release id).Faithful pool := by
  intro entry hmem
  obtain ⟨old, ho, rfl⟩ := List.mem_map.mp hmem
  split
  · exact h old ho
  · exact h old ho

/-- What is kept stays right over all requests. -/
theorem Reachable.faithful (h : guard.Reachable pool) : guard.Faithful pool := by
  induction h with
  | empty => exact List.forall_mem_nil _
  | suspicious ha _ ih => exact (ih.suspicious ha).2
  | release id _ ih => exact ih.release id

/-- The scans of several maps hold the flagged places of all of them. -/
theorem Faithful.collect (h : guard.Faithful pool) (hs : ∀ attrs ∈ sources, pool.has attrs)
    (place : Origin) :
    (∃ found ∈ (guard.collect sources).1, place ∈ found) ↔ Flagged sources place := by
  induction sources generalizing guard with
  | nil => simp [Guard.collect, Flagged]
  | cons attrs rest ih =>
    obtain ⟨ha, hs⟩ := List.forall_mem_cons.mp hs
    obtain ⟨hscan, hf⟩ := h.suspicious ha
    have hr := ih hf hs
    have hsplit : Flagged (attrs :: rest) place ↔ Flagged [attrs] place ∨ Flagged rest place := by
      simp only [Flagged, List.mem_cons, List.not_mem_nil, or_false, exists_eq_or_imp,
        exists_eq_left]
    rw [hsplit, ← hr, ← mem_scan, ← hscan, Guard.collect]
    dsimp only
    split
    · rename_i he
      rw [List.isEmpty_iff.mp he]
      simp only [List.not_mem_nil, false_or]
    · simp only [List.mem_cons, exists_eq_or_imp]

/-- The scans of maps, empty ones left out. -/
def scans (sources : List Attrs) : List Suspicious :=
  (sources.map Suspicious.scan).filter fun found => !found.isEmpty

/-- What is kept does not show in the scans of several maps. -/
theorem Faithful.collect_eq (h : guard.Faithful pool) (hs : ∀ attrs ∈ sources, pool.has attrs) :
    (guard.collect sources).1 = scans sources ∧ (guard.collect sources).2.Faithful pool := by
  induction sources generalizing guard with
  | nil => exact ⟨rfl, h⟩
  | cons attrs rest ih =>
    obtain ⟨ha, hs⟩ := List.forall_mem_cons.mp hs
    obtain ⟨hscan, hf⟩ := h.suspicious ha
    obtain ⟨hrest, hf'⟩ := ih hf hs
    refine ⟨?_, hf'⟩
    rw [Guard.collect]
    dsimp only
    rw [hscan, hrest, scans, scans, List.map_cons, List.filter_cons]
    cases (Suspicious.scan attrs).isEmpty <;> rfl

end

end Guard

/-- A relation between guards that give the same answers about maps of a kind, and still do
afterwards. -/
structure GuardPairing where
  maps : Attrs → Prop
  related : Guard → Guard → Prop
  collect {first second : Guard} {sources : List Attrs} : (∀ attrs ∈ sources, maps attrs) →
    related first second → (first.collect sources).1 = (second.collect sources).1 ∧
      related (first.collect sources).2 (second.collect sources).2

namespace GuardPairing

/-- A guard and itself. -/
def same : GuardPairing where
  maps _ := True
  related := Eq
  collect _ h := by
    obtain rfl := h
    exact ⟨rfl, rfl⟩

/-- A guard may be asked about all maps if it is compared with itself. -/
theorem maps_same (node : Node) : node.Maps same.maps := .of_forall (fun _ => trivial) node

/-- Guards that keep nothing wrong, whatever they keep. -/
def faithful (pool : Pool) : GuardPairing where
  maps := pool.has
  related first second := first.Faithful pool ∧ second.Faithful pool
  collect hs h := by
    obtain ⟨heq, hf⟩ := h.1.collect_eq hs
    obtain ⟨heq', hf'⟩ := h.2.collect_eq hs
    exact ⟨heq.trans heq'.symm, hf, hf'⟩

end GuardPairing

end RichDoc
