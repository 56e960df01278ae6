import RichDoc.Doc.Load
import RichDoc.Proofs.Doc.Repeats
import RichDoc.Proofs.Json.Drafts

/-!
# Reading a document from a text or from a value

The form of a document is read from the draft of a text, in which repeated field names still stand,
or from a value, in which of each name the last field is left. Where no node and no mark repeats a
field name both readings end alike. The reading of a draft fails if one of them does.
-/

namespace RichDoc

open Json (Fields Fault Draft DraftText)

namespace Form

/-! ### Readings that end alike -/

section

variable {α β ε ε' : Type}

/-- Two readings end alike: with one result, or both with an error. -/
def Agree (first : Except ε α) (second : Except ε' α) : Prop := first.toOption = second.toOption

theorem Agree.refl (first : Except ε α) : Agree first first := rfl

theorem Agree.error (error : ε) (error' : ε') :
    Agree (.error error : Except ε α) (.error error' : Except ε' α) := rfl

/-- Readings that end alike have one result or are both in error. -/
theorem Agree.cases {first : Except ε α} {second : Except ε' α} (h : Agree first second) :
    (∃ a, first = .ok a ∧ second = .ok a) ∨
      ∃ error error', first = .error error ∧ second = .error error' := by
  cases first with
  | ok a =>
    cases second with
    | ok b =>
      obtain rfl : a = b := Option.some.inj h
      exact Or.inl ⟨a, rfl, rfl⟩
    | error _ => cases h
  | error error =>
    cases second with
    | ok _ => cases h
    | error error' => exact Or.inr ⟨error, error', rfl, rfl⟩

theorem Agree.bind {first : Except ε α} {second : Except ε' α} {next : α → Except ε β}
    {next' : α → Except ε' β} (h : Agree first second) (hnext : ∀ a, Agree (next a) (next' a)) :
    Agree (first >>= next) (second >>= next') := by
  rcases h.cases with ⟨a, rfl, rfl⟩ | ⟨_, _, rfl, rfl⟩
  · exact hnext a
  · rfl

end

/-! ### The parts of nodes and marks -/

section

variable {draft : Draft} {value : Json} {items : List Draft} {values : List Json}
  {fields : List (String × Draft)} {pairs : List (String × Json)}

theorem agree_string (h : draft.ReadsAs value) :
    Agree (stringOfDraft draft) (stringOfJson value) := by
  cases h <;> rfl

theorem agree_text (h : draft.ReadsAs value) : Agree (textOfDraft draft) (textOfJson value) := by
  cases h <;> rfl

theorem agree_attrs (h : draft.ReadsAs value) : Agree (attrsOfDraft draft) (attrsOfJson value) := by
  cases h with
  | obj hpairs =>
    rw [attrsOfDraft, Draft.toPairs_eq_ok.mpr hpairs]
    rfl
  | null | bool | num | str | arr => rfl

/-- Nothing is wrong behind the last item or field. -/
theorem Agree.finish {α : Type} {first : Except TextFault α} {second : Except Mismatch α}
    (h : Agree first second) : Agree (first >>= fun a => finishDraft a none) second := by
  cases first <;> exact h

theorem agree_ofMismatch {α : Type} (result : Except Mismatch α) :
    Agree (ofMismatch result) result := by
  cases result <;> rfl

/-- Nothing may follow the last field of an array form. -/
theorem agree_endItems {α : Type} (h : Draft.ItemsReadAs items values) (result : α)
    (error : Mismatch) :
    Agree (endItems result items none)
      (if values.isEmpty then .ok result else .error error : Except Mismatch α) := by
  cases h <;> rfl

/-! ### Marks -/

/-- The fields of a mark. -/
theorem agree_markFields (h : Draft.FieldsReadAs fields pairs) (parts : MarkParts) :
    Agree (markFieldsOfDraft parts fields) (markFieldsOfJson parts pairs) := by
  induction h generalizing parts with
  | nil => rfl
  | @cons field pair fields pairs hfirst _ ih =>
    obtain ⟨name, draft⟩ := field
    obtain ⟨_, value⟩ := pair
    obtain ⟨rfl, hvalue⟩ := hfirst
    have hreads := Draft.readsAs_of_toJson hvalue
    rw [markFieldsOfDraft, markFieldsOfJson]
    dsimp only
    cases markFields.lookup name with
    | none => exact .error ..
    | some field =>
      dsimp only
      split
      · exact .error ..
      · cases field with
        | type => exact (agree_string hreads).bind fun _ => ih _
        | attrs => exact (agree_attrs hreads).bind fun _ => ih _

/-- An object that repeats no field name has the fields that are written. -/
theorem ofPairs_eq {tail : Option Fault} (h : Draft.FieldsReadAs fields pairs)
    (hrepeats : ¬Repeats (.obj fields tail)) : Fields.ofPairs pairs = pairs := by
  refine Fields.ofPairs_of_nodup ?_
  rw [h.names_eq]
  exact not_not.mp hrepeats

/-- A mark whose draft repeats no field name is read alike from its value. -/
theorem agree_mark (h : draft.ReadsAs value) (hrepeats : ¬Repeats draft) :
    Agree (markOfDraft draft) (markOfJson value) := by
  cases h with
  | obj hpairs =>
    rw [ofPairs_eq hpairs hrepeats, markOfDraft, markOfJson]
    exact (agree_markFields hpairs .empty).bind fun parts => agree_ofMismatch parts.finish
  | arr hvalues =>
    cases hvalues with
    | nil => rfl
    | cons htype hrest =>
      have htype := Draft.readsAs_of_toJson htype
      cases hrest with
      | nil =>
        rw [markOfDraft, markOfJson]
        exact (agree_string htype).bind fun _ => .refl _
      | cons hattrs hrest =>
        have hattrs := Draft.readsAs_of_toJson hattrs
        rw [markOfDraft, markOfJson]
        exact (agree_string htype).bind fun _ => (agree_attrs hattrs).bind fun _ =>
          agree_endItems hrest ..
  | null | bool | num | str => rfl

theorem agree_markItems (h : Draft.ItemsReadAs items values)
    (hrepeats : ∀ item ∈ items, ¬Repeats item) :
    Agree (markItemsOfDraft items) (markItemsOfJson values) := by
  induction h with
  | nil => rfl
  | cons hfirst _ ih =>
    obtain ⟨hmark, hmarks⟩ := List.forall_mem_cons.mp hrepeats
    rw [markItemsOfDraft, markItemsOfJson]
    exact (agree_mark (Draft.readsAs_of_toJson hfirst) hmark).bind fun _ =>
      (ih hmarks).bind fun _ => .refl _

theorem agree_marks (h : draft.ReadsAs value) (hrepeats : ∀ item ∈ itemsOf draft, ¬Repeats item) :
    Agree (marksOfDraft draft) (marksOfJson value) := by
  cases h with
  | arr hvalues =>
    rw [marksOfDraft, marksOfJson]
    exact (agree_markItems hvalues hrepeats).finish
  | null | bool | num | str | obj => rfl

end

/-! ### Nodes -/

/-- A field that is found by its name is a field of that name. -/
theorem mem_of_lookup {F : Type} {fields : List (String × F)} {name : String} {field : F}
    (h : fields.lookup name = some field) : (name, field) ∈ fields := by
  obtain ⟨before, behind, rfl, -⟩ := List.lookup_eq_some_iff.mp h
  exact List.mem_append_right _ (List.mem_cons_self ..)

mutual

/-- A node whose draft repeats no field name is read alike from its value. -/
theorem agree_node : (draft : Draft) → {value : Json} → draft.ReadsAs value →
    RepeatsNone draft → Agree (nodeOfDraft draft) (nodeOfJson value)
  | .obj fields tail, _, h, hnone => by
    cases h with
    | obj hpairs =>
      rw [ofPairs_eq hpairs (hnone .node _ .root), nodeOfDraft, nodeOfJson]
      exact (agree_nodeFields fields hpairs
        (fun value hvalue => hnone.content value (mem_written_obj.mpr hvalue))
        (fun value hvalue => hnone.marks value (mem_written_obj.mpr hvalue))
        .empty).bind fun parts => agree_ofMismatch parts.finish
  | .arr items tail, _, h, hnone => by
    cases h with
    | arr hvalues =>
      rw [nodeOfDraft, nodeOfJson]
      exact agree_nodeItems items hvalues
        (fun value hvalue => hnone.content value (mem_written_arr.mpr hvalue))
        (fun value hvalue => hnone.marks value (mem_written_arr.mpr hvalue))
  | .null, _, h, _ | .bool _, _, h, _ | .num _, _, h, _ | .str _, _, h, _ | .cut _, _, h, _ => by
    cases h <;> rfl

/-- Fields are read alike as long as the items in them are. -/
theorem agree_nodeFields : (fields : List (String × Draft)) → {pairs : List (String × Json)} →
    Draft.FieldsReadAs fields pairs →
    (∀ value, ("content", value) ∈ fields → ∀ item ∈ itemsOf value, RepeatsNone item) →
    (∀ value, ("marks", value) ∈ fields → ∀ item ∈ itemsOf value, ¬Repeats item) →
    (parts : NodeParts) → Agree (nodeFieldsOfDraft parts fields) (nodeFieldsOfJson parts pairs)
  | [], _, h, _, _, _ => by
    cases h
    rfl
  | (name, draft) :: rest, _, h, hcontent, hmarks, parts => by
    cases h with
    | @cons _ pair _ pairs hfirst hrest =>
      obtain ⟨_, value⟩ := pair
      obtain ⟨rfl, hvalue⟩ := hfirst
      have hreads := Draft.readsAs_of_toJson hvalue
      have ih := agree_nodeFields rest hrest
        (fun v hv => hcontent v (List.mem_cons_of_mem _ hv))
        (fun v hv => hmarks v (List.mem_cons_of_mem _ hv))
      rw [nodeFieldsOfDraft, nodeFieldsOfJson]
      cases hfield : nodeFields.lookup name with
      | none => exact .error ..
      | some field =>
        have hname := mem_of_lookup hfield
        dsimp only
        split
        · exact .error ..
        · cases field with
          | type => exact (agree_string hreads).bind fun _ => ih _
          | attrs => exact (agree_attrs hreads).bind fun _ => ih _
          | content =>
            obtain rfl : name = "content" := by simpa [nodeFields] using hname
            exact (agree_content draft hreads (hcontent draft (List.mem_cons_self ..))).bind
              fun _ => ih _
          | marks =>
            obtain rfl : name = "marks" := by simpa [nodeFields] using hname
            exact (agree_marks hreads (hmarks draft (List.mem_cons_self ..))).bind fun _ => ih _
          | text => exact (agree_text hreads).bind fun _ => ih _

/-- Content is the third field of an array form, and marks are the fourth. -/
theorem agree_nodeItems : (items : List Draft) → {values : List Json} →
    Draft.ItemsReadAs items values →
    (∀ value, items[2]? = some value → ∀ item ∈ itemsOf value, RepeatsNone item) →
    (∀ value, items[3]? = some value → ∀ item ∈ itemsOf value, ¬Repeats item) →
    Agree (nodeItemsOfDraft items none) (nodeItemsOfJson values)
  | [], _, h, _, _ => by
    cases h
    rfl
  | type :: rest, _, h, hcontent, hmarks => by
    cases h with
    | cons htype hrest =>
      have htype := agree_string (Draft.readsAs_of_toJson htype)
      match rest, hrest with
      | [], .nil =>
        rw [nodeItemsOfDraft, nodeItemsOfJson]
        exact htype.bind fun _ => .refl _
      | attrs :: rest, .cons hattrs hrest =>
        have hattrs := agree_attrs (Draft.readsAs_of_toJson hattrs)
        match rest, hrest with
        | [], .nil =>
          rw [nodeItemsOfDraft, nodeItemsOfJson]
          exact htype.bind fun _ => hattrs.bind fun _ => .refl _
        | content :: rest, .cons hvalue hrest =>
          have hnodes := agree_content content (Draft.readsAs_of_toJson hvalue)
            (hcontent content rfl)
          match rest, hrest with
          | [], .nil =>
            rw [nodeItemsOfDraft, nodeItemsOfJson]
            exact htype.bind fun _ => hattrs.bind fun _ => hnodes.bind fun _ => .refl _
          | marks :: rest, .cons hvalue hrest =>
            have hlist := agree_marks (Draft.readsAs_of_toJson hvalue) (hmarks marks rfl)
            match rest, hrest with
            | [], .nil =>
              rw [nodeItemsOfDraft, nodeItemsOfJson]
              exact htype.bind fun _ => hattrs.bind fun _ => hnodes.bind fun _ =>
                hlist.bind fun _ => .refl _
            | text :: rest, .cons htext hrest =>
              have htext := agree_text (Draft.readsAs_of_toJson htext)
              rw [nodeItemsOfDraft, nodeItemsOfJson]
              exact htype.bind fun _ => hattrs.bind fun _ => hnodes.bind fun _ =>
                hlist.bind fun _ => htext.bind fun _ => agree_endItems hrest ..

theorem agree_content : (draft : Draft) → {value : Json} → draft.ReadsAs value →
    (∀ item ∈ itemsOf draft, RepeatsNone item) →
    Agree (contentOfDraft draft) (contentOfJson value)
  | .arr items tail, _, h, hnone => by
    cases h with
    | arr hvalues =>
      rw [contentOfDraft, contentOfJson]
      exact (agree_nodes items hvalues hnone).finish
  | .null, _, h, _ | .bool _, _, h, _ | .num _, _, h, _ | .str _, _, h, _ | .obj _ _, _, h, _
  | .cut _, _, h, _ => by
    cases h <;> rfl

theorem agree_nodes : (items : List Draft) → {values : List Json} →
    Draft.ItemsReadAs items values →
    (∀ item ∈ items, RepeatsNone item) → Agree (nodesOfDraft items) (nodesOfJson values)
  | [], _, h, _ => by
    cases h
    rfl
  | item :: rest, _, h, hnone => by
    cases h with
    | cons hfirst hrest =>
      obtain ⟨hitem, hothers⟩ := List.forall_mem_cons.mp hnone
      rw [nodesOfDraft, nodesOfJson]
      exact (agree_node item (Draft.readsAs_of_toJson hfirst) hitem).bind fun _ =>
        (agree_nodes rest hrest hothers).bind fun _ => .refl _

end

end Form

namespace NodeForm

/-- A form is read alike from a text and from its value if no field name is repeated. -/
theorem agree_ofDraftText {text : DraftText} {value : Json} (h : text.toJson = .ok value)
    (hrepeats : Form.RepeatsNone text.value) : Form.Agree (ofDraftText text) (ofJson value) := by
  obtain ⟨read, hread, hfinish⟩ := Json.bind_eq_ok.mp h
  obtain ⟨htail, rfl⟩ := Draft.finish_eq_ok.mp hfinish
  rw [ofDraftText, htail]
  exact (Form.agree_node text.value (Draft.readsAs_of_toJson hread) hrepeats).finish

/-- A text from which a form is read repeats no field name. -/
theorem repeatsNone_of_ofDraftText {text : DraftText} {form : NodeForm}
    (h : ofDraftText text = .ok form) : Form.RepeatsNone text.value := by
  obtain ⟨read, hread, -⟩ := Json.bind_eq_ok.mp h
  exact Form.repeatsNone_of_ok hread

end NodeForm

namespace Schema

/-- A document that stands in a draft is loaded as from the value of the draft if no node and no
mark in the draft repeats a field name. If one does, it is refused. -/
structure LoadsAsValue (schema : Schema) (s : Nat) (draft : DraftText) (value : Json)
    (load : Making Node) : Prop where
  agree : Form.RepeatsNone draft.value →
    (∃ node t, load s = (.ok node, t) ∧ schema.loadJson value s = (.ok node, t)) ∨
      ∃ error error' t t', load s = (.error error, t) ∧
        schema.loadJson value s = (.error error', t')
  refused : ¬Form.RepeatsNone draft.value → ∃ error t, load s = (.error error, t)

/-- However a draft was read, it is loaded as its value is. -/
theorem loadDraft_asValue (schema : Schema) {draft : DraftText} {value : Json}
    (h : draft.toJson = .ok value) (s : Nat) :
    schema.LoadsAsValue s draft value (schema.loadDraft draft) := by
  constructor
  · intro hrepeats
    rcases (NodeForm.agree_ofDraftText h hrepeats).cases with
      ⟨form, hdraft, hvalue⟩ | ⟨error, error', hdraft, hvalue⟩
    · rw [loadDraft, loadJson, hdraft, hvalue]
      rcases hmade : schema.resolveNode form s with ⟨error | node, t⟩
      · exact Or.inr ⟨error, error, t, t, hmade, hmade⟩
      · exact Or.inl ⟨node, t, hmade, hmade⟩
    · rw [loadDraft, loadJson, hdraft, hvalue]
      exact Or.inr ⟨_, _, s, s, rfl, rfl⟩
  · intro hrepeats
    rw [loadDraft]
    cases hdraft : NodeForm.ofDraftText draft with
    | error fault => exact ⟨_, s, rfl⟩
    | ok form => exact absurd (NodeForm.repeatsNone_of_ofDraftText hdraft) hrepeats

/-- A document is loaded alike from a text and from its value if no node and no mark in the text
repeats a field name. If one does, the text is refused. This holds of every draft, with whatever
reader of texts it was made, and so of the texts themselves. -/
theorem loadText_agrees (schema : Schema) (s : Nat) :
    (∀ (draft : DraftText) (value : Json), draft.toJson = .ok value →
        schema.LoadsAsValue s draft value (schema.loadDraft draft)) ∧
      ∀ (text : String) (value : Json), Json.ofText text = .ok value →
        schema.LoadsAsValue s (.ofText text) value (schema.loadText text) :=
  ⟨fun _ _ h => loadDraft_asValue schema h s, fun _ _ h => loadDraft_asValue schema h s⟩

/-- An emphasized text in array form, with null for its attributes. -/
def sampleArrays : String := "[\"text\",null,[],[[\"em\"]],\"a\"]"

/-- A text whose type is written twice. -/
def sampleTwice : String := "\x7b\"type\":\"text\",\"type\":\"text\",\"text\":\"a\"\x7d"

/-- The array form is loaded from the text and from its value. The text in which a field is repeated
is refused, although its value can be loaded. -/
theorem loadText_agrees_sample :
    let schema : Schema :=
      ⟨[⟨⟨textTypeName, none, none, true, []⟩, none⟩], [⟨⟨"em", 0, true, []⟩, none⟩]⟩
    (∃ value node t, Json.ofText sampleArrays = .ok value ∧
        Form.RepeatsNone (DraftText.ofText sampleArrays).value ∧
        schema.loadText sampleArrays 0 = (.ok node, t) ∧
        schema.loadJson value 0 = (.ok node, t)) ∧
      ∃ value node t, Json.ofText sampleTwice = .ok value ∧
        ¬Form.RepeatsNone (DraftText.ofText sampleTwice).value ∧
        (∃ error u, schema.loadText sampleTwice 0 = (.error error, u)) ∧
        schema.loadJson value 0 = (.ok node, t) := by
  intro schema
  have harrays : DraftText.ofText sampleArrays =
      ⟨.arr [.str "text", .null, .arr [] none, .arr [.arr [.str "em"] none] none, .str "a"] none,
        none⟩ := by
    have hchars : sampleArrays.toList = _ := String.toList_ofList
    rw [DraftText.ofText, hchars]
    rfl
  have htwice : DraftText.ofText sampleTwice =
      ⟨.obj [("type", .str "text"), ("type", .str "text"), ("text", .str "a")] none, none⟩ := by
    have hchars : sampleTwice.toList = _ := String.toList_ofList
    rw [DraftText.ofText, hchars]
    rfl
  constructor
  · have hvalue : Json.ofText sampleArrays = .ok (.arr [.str "text", .null, .arr [],
        .arr [.arr [.str "em"]], .str "a"]) := by
      rw [Json.ofText, harrays]
      rfl
    have hnone : Form.RepeatsNone (DraftText.ofText sampleArrays).value := by
      rw [harrays]
      exact Form.repeatsNone_of_ok rfl
    rcases ((loadText_agrees schema 0).2 _ _ hvalue).agree hnone with
      ⟨node, t, htext, hjson⟩ | ⟨_, _, _, _, -, hjson⟩
    · exact ⟨_, node, t, hvalue, hnone, htext, hjson⟩
    · cases hjson
  · have hvalue : Json.ofText sampleTwice =
        .ok (.obj [("type", .str "text"), ("text", .str "a")]) := by
      rw [Json.ofText, htwice]
      rfl
    have hrepeats : ¬Form.RepeatsNone (DraftText.ofText sampleTwice).value := by
      rw [htwice]
      exact fun h => h .node _ .root (by decide : ¬["type", "type", "text"].Nodup)
    exact ⟨_, _, _, hvalue, hrepeats, ((loadText_agrees schema 0).2 _ _ hvalue).refused hrepeats,
      rfl⟩

end Schema

end RichDoc
