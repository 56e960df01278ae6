import RichDoc.Doc.Form
import RichDoc.Proofs.Json.Drafts

/-!
# Repeated field names

In a draft of a document some objects are in the position of a node or of a mark: the draft itself,
what stands in the content of a node, and what stands among its marks. A draft is read as a document
only if none of these objects repeats a field name.
-/

namespace RichDoc

open Json (Fault Draft)

namespace Form

/-! ### Positions of nodes and marks -/

/-- What is written for a field of a node: in an object under the name of the field, in an array at
its place. -/
def written (name : String) : Draft → List Draft
  | .obj fields _ => (fields.filter fun field => field.1 = name).map Prod.snd
  | .arr items _ => items[(nodeFields.map Prod.fst).idxOf name]?.toList
  | _ => []

/-- The items of a list. -/
def itemsOf : Draft → List Draft
  | .arr items _ => items
  | _ => []

/-- The items of the list that is written for a field of a node. -/
def childDrafts (name : String) (draft : Draft) : List Draft :=
  (written name draft).flatMap itemsOf

/-- To be in the position of a node or of a mark. The whole draft is in the position of a node, and
so is each item of the content of a node; each item of its marks is in the position of a mark. -/
inductive StandsFor (root : Draft) : Expected → Draft → Prop where
  | root : StandsFor root .node root
  | content {node item : Draft} : StandsFor root .node node → item ∈ childDrafts "content" node →
      StandsFor root .node item
  | marks {node item : Draft} : StandsFor root .node node → item ∈ childDrafts "marks" node →
      StandsFor root .mark item

/-- An object repeats a field name. -/
def Repeats : Draft → Prop
  | .obj fields _ => ¬(fields.map Prod.fst).Nodup
  | _ => False

/-- No object in the position of a node or of a mark repeats a field name. -/
def RepeatsNone (draft : Draft) : Prop := ∀ place item, StandsFor draft place item → ¬Repeats item

/-- What stands in an item of the content stands in the node. -/
theorem StandsFor.inside {draft child item : Draft} {place : Expected}
    (hchild : child ∈ childDrafts "content" draft) (h : StandsFor child place item) :
    StandsFor draft place item := by
  induction h with
  | root => exact .content .root hchild
  | content _ hitem ih => exact .content ih hitem
  | marks _ hitem ih => exact .marks ih hitem

theorem RepeatsNone.content {draft : Draft} (h : RepeatsNone draft) :
    ∀ value ∈ written "content" draft, ∀ child ∈ itemsOf value, RepeatsNone child :=
  fun _ hvalue _ hchild place item hitem =>
    h place item (hitem.inside (List.mem_flatMap.mpr ⟨_, hvalue, hchild⟩))

theorem RepeatsNone.marks {draft : Draft} (h : RepeatsNone draft) :
    ∀ value ∈ written "marks" draft, ∀ mark ∈ itemsOf value, ¬Repeats mark :=
  fun _ hvalue mark hmark => h .mark mark (.marks .root (List.mem_flatMap.mpr ⟨_, hvalue, hmark⟩))

theorem mem_written_obj {name : String} {fields : List (String × Draft)} {tail : Option Fault}
    {value : Draft} : value ∈ written name (.obj fields tail) ↔ (name, value) ∈ fields := by
  simp only [written, List.mem_map, List.mem_filter, decide_eq_true_eq]
  constructor
  · rintro ⟨⟨_, _⟩, ⟨hfield, rfl⟩, rfl⟩
    exact hfield
  · exact fun hfield => ⟨_, ⟨hfield, rfl⟩, rfl⟩

theorem mem_written_arr {name : String} {items : List Draft} {tail : Option Fault}
    {value : Draft} :
    value ∈ written name (.arr items tail) ↔
      items[(nodeFields.map Prod.fst).idxOf name]? = some value := by
  rw [written, Option.mem_toList]

/-! ### Successful readings -/

/-- Different names, none of them of a field that has been read. -/
def Fresh {F : Type} (table : List (String × F)) (has : F → Bool) (names : List String) : Prop :=
  names.Nodup ∧ ∀ name ∈ names, ∀ field, table.lookup name = some field → has field = false

/-- One more field is read. -/
theorem Fresh.cons {F : Type} {table : List (String × F)} {has has' : F → Bool} {name : String}
    {names : List String} {field : F} (h : Fresh table has' names)
    (hfield : table.lookup name = some field) (hnew : has field = false)
    (hread : has' field = true) (hkept : ∀ other, has other = true → has' other = true) :
    Fresh table has (name :: names) := by
  constructor
  · refine List.nodup_cons.mpr ⟨fun hmem => ?_, h.1⟩
    have hnot := h.2 name hmem field hfield
    rw [hread] at hnot
    cases hnot
  · intro other hmem otherField hother
    rcases List.mem_cons.mp hmem with rfl | hmem
    · obtain rfl := Option.some.inj (hfield.symm.trans hother)
      exact hnew
    · have hnot := h.2 other hmem otherField hother
      exact Bool.eq_false_iff.mpr fun hhas => Bool.eq_false_iff.mp hnot (hkept _ hhas)

/-- The fields of a mark that is read have different names. -/
theorem fresh_markFields {fields : List (String × Draft)} {parts read : MarkParts}
    (h : markFieldsOfDraft parts fields = .ok read) :
    Fresh markFields parts.has (fields.map Prod.fst) := by
  induction fields generalizing parts with
  | nil => exact ⟨List.nodup_nil, List.forall_mem_nil _⟩
  | cons field rest ih =>
    obtain ⟨name, draft⟩ := field
    rw [markFieldsOfDraft] at h
    cases hfield : markFields.lookup name with
    | none =>
      rw [hfield] at h
      cases h
    | some field =>
      simp only [hfield] at h
      by_cases hhas : parts.has field = true
      · rw [if_pos hhas] at h
        cases h
      · rw [if_neg hhas] at h
        have hnew := Bool.eq_false_iff.mpr hhas
        cases field with
        | type =>
          obtain ⟨typeName, -, h⟩ := Json.bind_eq_ok.mp h
          exact (ih h).cons hfield hnew rfl fun other => by cases other <;> simp [MarkParts.has]
        | attrs =>
          obtain ⟨attrs, -, h⟩ := Json.bind_eq_ok.mp h
          exact (ih h).cons hfield hnew rfl fun other => by cases other <;> simp [MarkParts.has]

/-- A mark that is read repeats no field name. -/
theorem not_repeats_of_mark {draft : Draft} {form : MarkForm} (h : markOfDraft draft = .ok form) :
    ¬Repeats draft := by
  cases draft with
  | obj fields tail =>
    rw [markOfDraft] at h
    obtain ⟨parts, hparts, -⟩ := Json.bind_eq_ok.mp h
    exact not_not.mpr (fresh_markFields hparts).1
  | null | bool | num | str | arr | cut => exact id

/-- What one more field of a node adds to what has been read. -/
theorem nodeFields_cons {name : String} {draft : Draft} {rest : List (String × Draft)}
    {parts read : NodeParts} (h : nodeFieldsOfDraft parts ((name, draft) :: rest) = .ok read) :
    ∃ field next, nodeFields.lookup name = some field ∧ parts.has field = false ∧
      next.has field = true ∧ (∀ other, parts.has other = true → next.has other = true) ∧
      nodeFieldsOfDraft next rest = .ok read ∧
      (field = .content → ∃ nodes, contentOfDraft draft = .ok nodes) ∧
      (field = .marks → ∃ marks, marksOfDraft draft = .ok marks) := by
  rw [nodeFieldsOfDraft] at h
  cases hfield : nodeFields.lookup name with
  | none =>
    rw [hfield] at h
    cases h
  | some field =>
    simp only [hfield] at h
    by_cases hhas : parts.has field = true
    · rw [if_pos hhas] at h
      cases h
    · rw [if_neg hhas] at h
      refine ⟨field, ?_⟩
      have hnew := Bool.eq_false_iff.mpr hhas
      cases field with
      | type | attrs | text =>
        obtain ⟨_, -, h⟩ := Json.bind_eq_ok.mp h
        exact ⟨_, rfl, hnew, rfl, fun other => by cases other <;> simp [NodeParts.has], h, nofun,
          nofun⟩
      | content =>
        obtain ⟨nodes, hnodes, h⟩ := Json.bind_eq_ok.mp h
        exact ⟨_, rfl, hnew, rfl, fun other => by cases other <;> simp [NodeParts.has], h,
          fun _ => ⟨nodes, hnodes⟩, nofun⟩
      | marks =>
        obtain ⟨marks, hmarks, h⟩ := Json.bind_eq_ok.mp h
        exact ⟨_, rfl, hnew, rfl, fun other => by cases other <;> simp [NodeParts.has], h, nofun,
          fun _ => ⟨marks, hmarks⟩⟩

/-- The fields of a node that is read have different names, and what is written for its content and
its marks is read. -/
theorem fresh_nodeFields {fields : List (String × Draft)} {parts read : NodeParts}
    (h : nodeFieldsOfDraft parts fields = .ok read) :
    Fresh nodeFields parts.has (fields.map Prod.fst) ∧
      (∀ value, ("content", value) ∈ fields → ∃ nodes, contentOfDraft value = .ok nodes) ∧
      ∀ value, ("marks", value) ∈ fields → ∃ marks, marksOfDraft value = .ok marks := by
  induction fields generalizing parts with
  | nil => exact ⟨⟨List.nodup_nil, List.forall_mem_nil _⟩, nofun, nofun⟩
  | cons field rest ih =>
    obtain ⟨name, draft⟩ := field
    obtain ⟨field, next, hfield, hnew, hread, hkept, h, hcontent, hmarks⟩ := nodeFields_cons h
    obtain ⟨hfresh, hnodes, hlists⟩ := ih h
    refine ⟨hfresh.cons hfield hnew hread hkept, fun value hmem => ?_, fun value hmem => ?_⟩
    · rcases List.mem_cons.mp hmem with he | hmem
      · cases he
        exact hcontent (Option.some.inj hfield).symm
      · exact hnodes value hmem
    · rcases List.mem_cons.mp hmem with he | hmem
      · cases he
        exact hmarks (Option.some.inj hfield).symm
      · exact hlists value hmem

/-- What is written at the places of the content and the marks of a node that is read in its array
form is read. -/
theorem parts_of_nodeItems {items : List Draft} {tail : Option Fault} {form : NodeForm}
    (h : nodeItemsOfDraft items tail = .ok form) :
    (∀ value, items[2]? = some value → ∃ nodes, contentOfDraft value = .ok nodes) ∧
      ∀ value, items[3]? = some value → ∃ marks, marksOfDraft value = .ok marks := by
  match items, h with
  | [], _ | [_], _ | [_, _], _ => exact ⟨nofun, nofun⟩
  | [_, _, content], h =>
    rw [nodeItemsOfDraft] at h
    simp only [Json.bind_eq_ok] at h
    obtain ⟨_, -, _, -, nodes, hnodes, -⟩ := h
    refine ⟨fun value he => ?_, nofun⟩
    cases he
    exact ⟨nodes, hnodes⟩
  | [_, _, content, marks], h | _ :: _ :: content :: marks :: _ :: _, h =>
    rw [nodeItemsOfDraft] at h
    simp only [Json.bind_eq_ok] at h
    obtain ⟨_, -, _, -, nodes, hnodes, list, hlist, -⟩ := h
    refine ⟨fun value he => ?_, fun value he => ?_⟩
    · cases he
      exact ⟨nodes, hnodes⟩
    · cases he
      exact ⟨list, hlist⟩

/-- When items are read one after another, each of them is read. -/
theorem forall_mem_of_items {α : Type} {read : Draft → Except TextFault α}
    {readAll : List Draft → Except TextFault (List α)}
    (hcons : ∀ item rest, readAll (item :: rest) = do
      let first ← read item
      let others ← readAll rest
      .ok (first :: others))
    {items : List Draft} {results : List α} (h : readAll items = .ok results) :
    ∀ item ∈ items, ∃ result, read item = .ok result := by
  induction items generalizing results with
  | nil => exact List.forall_mem_nil _
  | cons item rest ih =>
    rw [hcons] at h
    simp only [Json.bind_eq_ok] at h
    obtain ⟨first, hfirst, others, hothers, -⟩ := h
    exact List.forall_mem_cons.mpr ⟨⟨first, hfirst⟩, ih hothers⟩

/-- Every item of a content that is read is read as a node. -/
theorem forall_mem_of_content {draft : Draft} {nodes : List NodeForm}
    (h : contentOfDraft draft = .ok nodes) :
    ∀ item ∈ itemsOf draft, ∃ form, nodeOfDraft item = .ok form := by
  cases draft with
  | arr items tail =>
    rw [contentOfDraft] at h
    obtain ⟨forms, hforms, -⟩ := Json.bind_eq_ok.mp h
    exact forall_mem_of_items (fun _ _ => by rw [nodesOfDraft]) hforms
  | null | bool | num | str | obj | cut => exact List.forall_mem_nil _

/-- Every item of a list of marks that is read is read as a mark. -/
theorem forall_mem_of_marks {draft : Draft} {marks : List MarkForm}
    (h : marksOfDraft draft = .ok marks) :
    ∀ item ∈ itemsOf draft, ∃ form, markOfDraft item = .ok form := by
  cases draft with
  | arr items tail =>
    rw [marksOfDraft] at h
    obtain ⟨forms, hforms, -⟩ := Json.bind_eq_ok.mp h
    exact forall_mem_of_items (fun _ _ => by rw [markItemsOfDraft]) hforms
  | null | bool | num | str | obj | cut => exact List.forall_mem_nil _

/-- A node that is read repeats no field name, and what is written for its content and its marks is
read. -/
theorem written_of_node {draft : Draft} {form : NodeForm} (h : nodeOfDraft draft = .ok form) :
    ¬Repeats draft ∧
      (∀ value ∈ written "content" draft, ∃ nodes, contentOfDraft value = .ok nodes) ∧
      ∀ value ∈ written "marks" draft, ∃ marks, marksOfDraft value = .ok marks := by
  cases draft with
  | obj fields tail =>
    rw [nodeOfDraft] at h
    obtain ⟨parts, hparts, -⟩ := Json.bind_eq_ok.mp h
    obtain ⟨hfresh, hcontent, hmarks⟩ := fresh_nodeFields hparts
    exact ⟨not_not.mpr hfresh.1, fun value hvalue => hcontent value (mem_written_obj.mp hvalue),
      fun value hvalue => hmarks value (mem_written_obj.mp hvalue)⟩
  | arr items tail =>
    rw [nodeOfDraft] at h
    obtain ⟨hcontent, hmarks⟩ := parts_of_nodeItems h
    exact ⟨id, fun value hvalue => hcontent value (mem_written_arr.mp hvalue),
      fun value hvalue => hmarks value (mem_written_arr.mp hvalue)⟩
  | null | bool | num | str | cut => cases h

/-- What stands for a node or for a mark in a draft that is read is read as such. -/
theorem StandsFor.read {root item : Draft} {place : Expected} {form : NodeForm}
    (hroot : nodeOfDraft root = .ok form) (h : StandsFor root place item) :
    (place = .node ∧ ∃ form, nodeOfDraft item = .ok form) ∨
      place = .mark ∧ ∃ form, markOfDraft item = .ok form := by
  induction h with
  | root => exact Or.inl ⟨rfl, form, hroot⟩
  | content _ hitem ih =>
    rcases ih with ⟨-, node, hnode⟩ | ⟨hplace, -⟩
    · obtain ⟨value, hvalue, hitem⟩ := List.mem_flatMap.mp hitem
      obtain ⟨nodes, hnodes⟩ := (written_of_node hnode).2.1 value hvalue
      exact Or.inl ⟨rfl, forall_mem_of_content hnodes _ hitem⟩
    · cases hplace
  | marks _ hitem ih =>
    rcases ih with ⟨-, node, hnode⟩ | ⟨hplace, -⟩
    · obtain ⟨value, hvalue, hitem⟩ := List.mem_flatMap.mp hitem
      obtain ⟨marks, hmarks⟩ := (written_of_node hnode).2.2 value hvalue
      exact Or.inr ⟨rfl, forall_mem_of_marks hmarks _ hitem⟩
    · cases hplace

/-- A draft that is read as a node repeats no field name of a node or a mark. -/
theorem repeatsNone_of_ok {draft : Draft} {form : NodeForm} (h : nodeOfDraft draft = .ok form) :
    RepeatsNone draft := by
  intro place item hitem
  rcases hitem.read h with ⟨-, node, hnode⟩ | ⟨-, mark, hmark⟩
  · exact (written_of_node hnode).1
  · exact not_repeats_of_mark hmark

end Form

end RichDoc
