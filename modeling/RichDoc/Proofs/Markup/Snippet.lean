import Mathlib
import RichDoc.Markup.Parser
import RichDoc.Proofs.Markup.Misnesting

/-!
# A snippet that is read is a tree

Every rule of every part of a page leaves a sound construction, so reading a text does. The page
that a text is read as is therefore a forest, whatever the text is, and what is kept of a snippet is
a tree in it.
-/

namespace RichDoc.Markup

open Std.Do

set_option mvcgen.warning false

variable {aside : Link}

/-! ### The beginning of a page -/

/-- An element that is made and given up stays detached. -/
@[spec] theorem createFor_keeps (ns : Namespace) (tag : Tag) : Keeps aside (createFor ns tag) :=
  fun _ h => Standing.extend h (.of_sameLinks h.wellFormed (Dom.sameLinks_createElement ..)
    ((Nat.le_succ _).trans_eq (Dom.size_createElement ..).symm))

/-- The outermost element is put into the document. -/
@[spec] theorem openPage_keeps (tag : Tag) : Keeps aside (openPage tag) := by
  intro c h
  have hroot : (Place.inside 0).parentIn c.dom < c.dom.size := h.rooted
  exact (h.hang (Dom.sameLinks_createElement ..) (Dom.size_createElement ..) hroot).opens

/-- Attributes can be added to every element. -/
theorem Construction.Sound.addAttributes {c : Construction} (h : c.Sound aside) (link : Link)
    (attrs : List Attribute) :
    Construction.Sound aside { c with dom := c.dom.addMissingAttributes link attrs } :=
  Standing.extend h (.of_sameLinks h.wellFormed (Dom.sameLinks_setAttributes ..)
    (Dom.size_setAttributes ..).ge)

/-- A second tag of the outermost element adds attributes. -/
@[spec] theorem extendPage_keeps (tag : Tag) : Keeps aside (extendPage tag) := by
  mvcgen [extendPage]
  case vc1 c h t =>
    simp only [t]
    split
    · exact h
    · exact h.addAttributes ..

/-- The head is remembered so that it can be opened again. -/
@[spec] theorem openHead_keeps (tag : Tag) : Keeps aside (openHead tag) := by
  intro c h
  have hready := insertFor_ready .html tag c h
  refine { hready.opens with head_lt := ?_ }
  exact fun _ hhead => Option.some.inj hhead ▸ hready.lt_size

attribute [spec] openTemplate closeTemplate endTemplate

/-- What belongs into the head can be read anywhere. -/
@[spec] theorem headElement_keeps (tag : Tag) : Keeps aside (headElement tag) := by
  mvcgen [headElement]

/-- What stands aside is taken out of the open elements. -/
theorem removeOpen_aside (id : NodeId) :
    ⦃fun c => ⌜c.Sound (some id)⌝⦄ removeOpen id ⦃⇓ _ c => ⌜c.Sound none⌝⦄ :=
  fun _ h => Standing.closeAside h

/-- An element that comes late is read with the head open, out of the order of the others. -/
@[spec] theorem lateHeadElement_keeps (tag : Tag) : Keeps none (lateHeadElement tag) := by
  mvcgen [lateHeadElement, removeOpen_aside, -removeOpen_keeps]
  case pre c h head hhead _ =>
    have h : Standing none c.dom c.opened (some head) := hhead ▸ h
    have haside : Standing (some head.id) c.dom (head :: c.opened) c.head := hhead ▸ h.openAside
    exact haside

/-! ### The body -/

/-- A second tag of the body adds attributes. -/
@[spec] theorem extendBody_keeps (tag : Tag) : Keeps aside (extendBody tag) := by
  mvcgen [extendBody]
  case vc1 c h t =>
    simp only [t]
    split
    · exact h
    · split
      · exact h
      · exact h.addAttributes ..

/-- The body is unlinked when it gives way to frames, and what was open in it is closed. -/
@[spec] theorem replaceBody_keeps (tag : Tag) : Keeps aside (replaceBody tag) := by
  mvcgen [replaceBody]
  case pre c h body _ _ =>
    refine Standing.extend (Standing.close h ?_) (.detach h.wellFormed body.id)
    cases hlast : c.outermost with
    | none => exact List.nil_sublist _
    | some element => exact List.singleton_sublist.mpr (List.mem_of_getLast? hlast)

attribute [spec] bodyChar closeItem emptyElement ordinaryElement blockElement rubyElement
  formElement choiceElement endBlock endForm endOfText

/-- The rules for all kinds of start tags. -/
@[spec] theorem bodyStartTag_keeps (tag : Tag) : Keeps none (bodyStartTag tag) := by
  mvcgen [bodyStartTag]

/-- The rules for all kinds of end tags. -/
@[spec] theorem bodyEndTag_keeps (name : String) : Keeps none (bodyEndTag name) := by
  mvcgen [bodyEndTag]

/-- The rules in the body, to which other parts of a page leave most tokens. -/
@[spec] theorem inBodyRule_keeps (token : Token) : Keeps none (inBodyRule token) := by
  mvcgen [inBodyRule]

/-! ### All parts of a page -/

/-- Work that is done for one item after the other. -/
@[spec] theorem forM_keeps {α : Type} {work : α → Constructing Unit}
    (h : ∀ item, Keeps aside (work item)) (items : List α) : Keeps aside (items.forM work) := by
  induction items with
  | nil => mvcgen [List.forM]
  | cons item rest ih =>
    show Keeps aside (work item >>= fun _ => rest.forM work)
    mvcgen [h, ih]

attribute [spec] fosterToken openPart openMissingPart tableChar placeTableText

/-- The rules in a table, to which the parts of a table leave most tokens. -/
@[spec] theorem inTableRule_keeps (token : Token) : Keeps none (inTableRule token) := by
  mvcgen [inTableRule]
  case success h _ => exact h.sound

/-- The rules in an element that holds text only. -/
@[spec] theorem textRule_keeps (token : Token) : Keeps none (textRule token) := by
  unfold textRule
  cases token with
  | char | endTag | endOfText | comment | startTag | doctype | breach => mvcgen

attribute [spec] initialRule beforeHtmlRule beforeHeadRule inHeadRule afterHeadRule inTableTextRule
  inCaptionRule inColumnGroupRule inTableBodyRule inRowRule inCellRule inTemplateRule afterBodyRule
  inFramesetRule afterFramesetRule afterAfterBodyRule afterAfterFramesetRule

/-- The rules of each part of a page. -/
@[spec] theorem partRule_keeps (mode : Mode) (token : Token) :
    Keeps none (partRule mode token) := by
  cases mode with
  | _ => mvcgen [partRule]

/-! ### Drawings and formulas -/

/-- Drawings and formulas are left by closing their elements. -/
@[spec] theorem leaveForeign_keeps (token : Token) : Keeps none (leaveForeign token) := by
  mvcgen [leaveForeign]
  case vc1 h _ => exact Standing.close h (List.dropWhile_sublist _)

/-- What an end tag ends is looked for in the open elements, so what is left open was open. -/
@[spec] theorem look_keeps (name : String) (searched : List OpenElement) :
    ⦃fun c => ⌜c.Sound none ∧ searched.Sublist c.opened⌝⦄ endForeign.look name searched
    ⦃⇓ _ c => ⌜c.Sound none⌝⦄ := by
  induction searched with
  | nil =>
    mvcgen [endForeign.look]
    case vc1 h => exact h.1
  | cons element rest ih =>
    mvcgen [endForeign.look, ih]
    case vc1 h => exact h.1
    case vc2 h => exact h.1
    case vc3 h _ => exact Standing.close h.1 ((List.sublist_cons_self ..).trans h.2)
    case vc4 h => exact ⟨h.1, (List.sublist_cons_self ..).trans h.2⟩

/-- The rules inside drawings and formulas. -/
@[spec] theorem foreignRule_keeps (token : Token) : Keeps none (foreignRule token) := by
  mvcgen [foreignRule, endForeign]

/-! ### Texts -/

/-- A token that is read anew in another part, any number of times. -/
@[spec] theorem completeToken_keeps (steps : Nat) (token : Token) :
    Keeps none (completeToken steps token) := by
  induction steps with
  | zero => mvcgen [completeToken]
  | succ steps ih => mvcgen [completeToken, ih]

/-- Each token leaves a sound construction. -/
@[spec] theorem readToken_keeps (token : Token) : Keeps none (readToken token) := by
  mvcgen [readToken]

attribute [spec] passMark

/-- Reading a text leaves a sound construction, after every step. -/
theorem readTokens_keeps (steps : Nat) (cs : List Char) : Keeps none (readTokens steps cs) := by
  induction steps generalizing cs with
  | zero => mvcgen [readTokens]
  | succ steps ih =>
    mvcgen [readTokens, ih]
    case success => exact id

/-- The document alone is a sound construction. -/
theorem sound_start : Construction.start.Sound none where
  wellFormed := Dom.wellFormed_empty
  rooted := Nat.zero_lt_one
  opened_lt := nofun
  head_lt := nofun
  nested := List.pairwise_singleton ..

/-- Every text is read as a forest. -/
theorem parsePage_wellFormed (text : String) : (parsePage text).WellFormed :=
  (readTokens_keeps _ _ .start sound_start).wellFormed

/-- What is kept of a snippet is a tree of a forest, the first one in a body. -/
theorem parseSnippet_wellFormed {text : String} {sub : Subtree}
    (h : parseSnippet text = some sub) :
    sub.dom.WellFormed ∧ ∃ body first, sub.dom.tag? (some body) = some "body" ∧
      (sub.dom.children (some body)).head? = some first ∧ sub.root = some first := by
  simp only [parseSnippet, bind, Option.bind_eq_some_iff] at h
  obtain ⟨body, hbody, first, hfirst, hsub⟩ := h
  obtain rfl := Option.some.inj hsub
  exact ⟨parsePage_wellFormed text, body, first, by simpa using List.find?_some hbody, hfirst, rfl⟩

example : (parseSnippet "<b>1<p>2</b>3").isSome := by decide +kernel

end RichDoc.Markup
