import Mathlib
import RichDoc.Markup.Construction
import RichDoc.Proofs.Dom.Extending

/-!
# The open elements in their tree

While markup is read, the tree stays a forest. New content is harmless wherever it goes. Only a
block that is taken out of its formatting moves to another place, and that place is never below the
block: it is at an element that was opened before it, and no open element is below a newer one.

The head can be opened again when it is closed already, to take in an element that comes late. Until
that is done it stands aside, out of the order of the others.
-/

namespace RichDoc.Markup

open Std.Do

set_option mvcgen.warning false

/-- The nodes of the open elements, newest first, and the document in which they stand. -/
def standingNodes (aside : Link) (opened : List OpenElement) : List NodeId :=
  (opened.map (·.id)).filter (fun id => some id ≠ aside) ++ [0]

/-- Open elements stand in a forest: each is a node of it, and none is below a newer one. -/
structure Standing (aside : Link) (dom : Dom) (opened : List OpenElement)
    (head : Option OpenElement) : Prop where
  wellFormed : dom.WellFormed
  rooted : 0 < dom.size
  opened_lt : ∀ element ∈ opened, element.id < dom.size
  head_lt : ∀ element ∈ head, element.id < dom.size
  nested : (standingNodes aside opened).Pairwise fun newer older => ¬dom.Under older newer

/-- The open elements of a construction stand in its tree. -/
def Construction.Sound (aside : Link) (c : Construction) : Prop :=
  Standing aside c.dom c.opened c.head

/-- Work that is begun in a sound construction leaves it sound. -/
abbrev Keeps (aside : Link) {α : Type} (work : Constructing α) : Prop :=
  ⦃fun c => ⌜c.Sound aside⌝⦄ work ⦃⇓ _ c => ⌜c.Sound aside⌝⦄

variable {aside : Link} {dom dom' : Dom} {opened opened' : List OpenElement}
  {head : Option OpenElement} {c : Construction}

/-- Where nothing stands aside, all open elements are in order. -/
theorem standingNodes_none (opened : List OpenElement) :
    standingNodes none opened = opened.map (·.id) ++ [0] := by
  simp [standingNodes]

/-- The nodes that stand in order are the open elements but what stands aside, and the document. -/
theorem mem_standingNodes {id : NodeId} :
    id ∈ standingNodes aside opened ↔
      (∃ element ∈ opened, element.id = id) ∧ some id ≠ aside ∨ id = 0 := by
  simp [standingNodes]

namespace Standing

/-- All nodes that stand in order are there. -/
theorem lt_size (h : Standing aside dom opened head) {id : NodeId}
    (hid : id ∈ standingNodes aside opened) : id < dom.size := by
  rcases mem_standingNodes.mp hid with ⟨⟨element, helement, rfl⟩, -⟩ | rfl
  · exact h.opened_lt element helement
  · exact h.rooted

/-- Elements can be closed. -/
theorem close (h : Standing aside dom opened head) (hsub : opened'.Sublist opened) :
    Standing aside dom opened' head where
  wellFormed := h.wellFormed
  rooted := h.rooted
  opened_lt element helement := h.opened_lt element (hsub.subset helement)
  head_lt := h.head_lt
  nested := h.nested.sublist (((hsub.map _).filter _).append_right _)

/-- The order of the open elements is not touched when the tree is extended. -/
theorem extend (h : Standing aside dom opened head) (hext : dom.Extends dom') :
    Standing aside dom' opened head where
  wellFormed := hext.wellFormed
  rooted := h.rooted.trans_le hext.size_le
  opened_lt element helement := (h.opened_lt element helement).trans_le hext.size_le
  head_lt element helement := (h.head_lt element helement).trans_le hext.size_le
  nested := h.nested.imp_of_mem fun hnewer holder hnot hu =>
    hnot (hext.under _ (h.lt_size holder) _ (h.lt_size hnewer) hu)

/-- An element without content can be opened. -/
theorem openNew (h : Standing aside dom opened head) {element : OpenElement}
    (hlt : element.id < dom.size) (hchildren : dom.children (some element.id) = [])
    (hapart : element.id ∉ standingNodes aside opened) :
    Standing aside dom (element :: opened) head where
  wellFormed := h.wellFormed
  rooted := h.rooted
  opened_lt := List.forall_mem_cons.mpr ⟨hlt, h.opened_lt⟩
  head_lt := h.head_lt
  nested := by
    have hnew : ∀ older ∈ standingNodes aside opened, ¬dom.Under older element.id := by
      intro older holder hu
      exact hapart (h.wellFormed.eq_of_under hu hchildren ▸ holder)
    by_cases hne : some element.id ≠ aside
    · rw [standingNodes, List.map_cons, List.filter_cons_of_pos (by simpa using hne),
        List.cons_append]
      exact List.pairwise_cons.mpr ⟨hnew, h.nested⟩
    · rw [standingNodes, List.map_cons, List.filter_cons_of_neg (by simpa using hne)]
      exact h.nested

/-- The head is opened again and stands aside. -/
theorem openAside {element : OpenElement} (h : Standing none dom opened (some element)) :
    Standing (some element.id) dom (element :: opened) (some element) where
  wellFormed := h.wellFormed
  rooted := h.rooted
  opened_lt := List.forall_mem_cons.mpr ⟨h.head_lt _ rfl, h.opened_lt⟩
  head_lt := h.head_lt
  nested := by
    refine h.nested.sublist ?_
    rw [standingNodes, List.map_cons, List.filter_cons_of_neg (by simp), standingNodes_none]
    exact List.filter_sublist.append_right _

/-- What stands aside is closed. -/
theorem closeAside {id : NodeId} (h : Standing (some id) dom opened head) :
    Standing none dom (opened.filter fun element => element.id != id) head where
  wellFormed := h.wellFormed
  rooted := h.rooted
  opened_lt element helement := h.opened_lt element (List.mem_of_mem_filter helement)
  head_lt := h.head_lt
  nested := by
    have hnodes : standingNodes none (opened.filter fun element => element.id != id) =
        standingNodes (some id) opened := by
      rw [standingNodes_none, standingNodes, List.filter_map]
      congr 2
      refine List.filter_congr fun element _ => ?_
      rw [Bool.eq_iff_iff]
      simp
    exact hnodes ▸ h.nested

end Standing

/-! ### Where new content goes -/

/-- The node at whose end a place is. -/
def Place.parentIn (dom : Dom) : Place → NodeId
  | .inside parent => parent
  | .beside table around => (dom.parent (some table)).getD around

/-- All nodes that a place names pass a test. -/
def Place.Names (test : NodeId → Prop) : Place → Prop
  | .inside parent => test parent
  | .beside table around => test table ∧ test around

/-- What is put beside a table goes to the end of its parent. -/
theorem Construction.putAt_eq (c : Construction) (place : Place) (item : Insertion) :
    c.putAt place item = { c with dom := c.dom.insert (some (place.parentIn c.dom)) item } := by
  cases place with
  | inside parent => rfl
  | beside table around =>
    rw [putAt, Dom.insertNear, Place.parentIn]
    cases c.dom.parent (some table) with
    | none => rfl
    | some parent => rfl

/-- A place is at the end of a node that it names, or of the parent of one. -/
theorem Place.Names.parentIn {test : NodeId → Prop} {place : Place} (h : place.Names test)
    (dom : Dom) : test (place.parentIn dom) ∨
      ∃ table, test table ∧ dom.parent (some table) = some (place.parentIn dom) := by
  cases place with
  | inside parent => exact Or.inl h
  | beside table around =>
    rw [Place.parentIn]
    cases hparent : dom.parent (some table) with
    | none => exact Or.inl h.2
    | some parent => exact Or.inr ⟨table, h.1, hparent⟩

/-- The place outside a table is at one of the open elements that are looked through. -/
theorem names_outside {test : NodeId → Prop} (hroot : test 0)
    (hlast : ∀ element ∈ c.outermost, test element.id) {searched : List OpenElement}
    (hall : ∀ element ∈ searched, test element.id) :
    (Construction.placeIn.outside c searched).Names test := by
  have hgetD : ∀ found : Option OpenElement, (∀ element ∈ found, test element.id) →
      test ((found.map (·.id)).getD 0) := by
    intro found hfound
    cases found with
    | none => exact hroot
    | some element => exact hfound element rfl
  induction searched with
  | nil => exact hgetD _ hlast
  | cons element rest ih =>
    obtain ⟨hfirst, hrest⟩ := List.forall_mem_cons.mp hall
    rw [Construction.placeIn.outside]
    split
    · exact hfirst
    · split
      · exact ⟨hfirst, hgetD _ fun next hnext => hrest next (List.mem_of_head? hnext)⟩
      · exact ih hrest

/-- Content goes to an open element, or beside one. -/
theorem Construction.names_placeIn {test : NodeId → Prop} (hroot : test 0)
    (hopened : ∀ element ∈ c.opened, test element.id) {target : Option OpenElement}
    (htarget : ∀ element ∈ target, test element.id) : (c.placeIn target).Names test := by
  cases target with
  | none => exact hroot
  | some target =>
    rw [placeIn]
    split
    · exact names_outside hroot (fun element h => hopened element (List.mem_of_getLast? h)) hopened
    · exact htarget target rfl

namespace Construction.Sound

/-- Where new content goes depends on the open elements only. -/
theorem place_lt (h : c.Sound aside) {c' : Construction} (hopened : c'.opened = c.opened) :
    c'.place.parentIn c.dom < c.dom.size := by
  have hlt : ∀ element ∈ c'.opened, element.id < c.dom.size := hopened ▸ h.opened_lt
  have hnames : c'.place.Names (· < c.dom.size) :=
    c'.names_placeIn h.rooted hlt fun element hhead => hlt element (List.mem_of_head? hhead)
  rcases hnames.parentIn c.dom with hlt | ⟨table, -, hparent⟩
  · exact hlt
  · exact h.wellFormed.parents table _ hparent

/-- There is a node for what belongs to the page as a whole. -/
theorem outermost_lt (h : c.Sound aside) :
    (c.outermost.map (·.id)).getD 0 < c.dom.size := by
  cases hlast : c.outermost with
  | none => exact h.rooted
  | some element => exact h.opened_lt element (List.mem_of_getLast? hlast)

end Construction.Sound

/-! ### New content -/

/-- A node that is not open yet has nothing inside, so it can be opened. -/
structure Construction.Ready (aside : Link) (c : Construction) (id : NodeId) : Prop where
  sound : c.Sound aside
  lt_size : id < c.dom.size
  childless : c.dom.children (some id) = []
  apart : id ∉ standingNodes aside c.opened

/-- A node that is ready can be opened. -/
theorem Construction.Ready.opens {id : NodeId} {name : QualName} (h : c.Ready aside id) :
    Construction.Sound aside { c with opened := ⟨id, name⟩ :: c.opened } :=
  Standing.openNew h.sound h.lt_size h.childless h.apart

/-- A new node can be hung up at each place that was there before it. -/
theorem Construction.Sound.hang (h : c.Sound aside) {made : Dom} (hsame : c.dom.SameLinks made)
    (hsize : made.size = c.dom.size + 1) {place : Place}
    (hplace : place.parentIn c.dom < c.dom.size) :
    Construction.Ready aside ({ c with dom := made }.putAt place (.node (some c.dom.size)))
      c.dom.size := by
  have hparent : place.parentIn made = place.parentIn c.dom := by
    cases place with
    | inside => rfl
    | beside table => rw [Place.parentIn, Place.parentIn, hsame.parent_eq]
  have hchildren : made.children (some c.dom.size) = [] :=
    (hsame.children_eq h.wellFormed _).trans (h.wellFormed.children_of_le (Nat.le_refl _))
  have hmade := Dom.Extends.of_sameLinks h.wellFormed hsame (hsize ▸ Nat.le_succ _)
  have hlt : c.dom.size < made.size := hsize ▸ Nat.lt_succ_self _
  have hunder : ¬made.Under (place.parentIn c.dom) c.dom.size := fun hu =>
    hplace.ne (hmade.wellFormed.eq_of_under hu hchildren)
  have hr := hmade.wellFormed.append (hplace.trans hlt) hlt hunder
  have hext := hmade.append (hplace.trans hlt) hlt (Nat.le_refl _) hplace.ne hchildren
  rw [Construction.putAt_eq, hparent]
  refine ⟨Standing.extend h hext, hr.size_eq ▸ hlt, ?_, fun hmem => ?_⟩
  · refine (hr.children_eq _).trans ?_
    rw [if_neg hplace.ne', hchildren]
    rfl
  · exact Nat.lt_irrefl _ (Standing.lt_size h hmem)

/-- An element that is put where new content goes can be opened. -/
@[spec] theorem insertFor_ready (ns : Namespace) (tag : Tag) :
    ⦃fun c => ⌜c.Sound aside⌝⦄ insertFor ns tag ⦃⇓ element c => ⌜c.Ready aside element.id⌝⦄ := by
  intro c h
  exact h.hang (Dom.sameLinks_createElement ..) (Dom.size_createElement ..) (h.place_lt rfl)

/-- An element can be put in its place and opened. -/
@[spec] theorem openFor_keeps (tag : Tag) : Keeps aside (openFor tag) := by
  mvcgen [openFor] with exact Construction.Ready.opens ‹_›

/-- An element can be put in its place without being opened. -/
@[spec] theorem insertEmpty_keeps (tag : Tag) : Keeps aside (insertEmpty tag) := by
  mvcgen [insertEmpty] with exact Construction.Ready.sound ‹_›

/-- An element of a drawing or a formula can be put in its place. -/
@[spec] theorem openForeign_keeps (ns : Namespace) (tag : Tag) :
    Keeps aside (openForeign ns tag) := by
  mvcgen [openForeign]
  case isTrue h => exact h.sound
  case isFalse h _ => exact h.opens

/-- Text can be added wherever there is a node. -/
theorem Construction.Sound.addText (h : c.Sound aside) {place : Place}
    (hplace : place.parentIn c.dom < c.dom.size) (text : String) :
    (c.putAt place (.text text)).Sound aside :=
  c.putAt_eq place _ ▸ Standing.extend h (.appendText h.wellFormed hplace text)

/-- A character can be put where new content goes. -/
@[spec] theorem insertChar_keeps (char : Char) : Keeps aside (insertChar char) :=
  fun _ h => h.addText (h.place_lt rfl) _

/-- A comment can be put wherever there is a node. -/
@[spec] theorem commentAt_keeps (place : Place) (text : String) :
    ⦃fun c => ⌜c.Sound aside ∧ place.parentIn c.dom < c.dom.size⌝⦄ commentAt place text
    ⦃⇓ _ c => ⌜c.Sound aside⌝⦄ :=
  fun _ ⟨h, hplace⟩ => (h.hang (Dom.sameLinks_create ..) (Dom.size_create ..) hplace).sound

/-- A comment can be put where new content goes. -/
@[spec] theorem insertComment_keeps (text : String) : Keeps aside (insertComment text) := by
  mvcgen [insertComment]
  case vc1 h => exact ⟨h, h.place_lt rfl⟩

/-- A comment can be put at the end of the document. -/
@[spec] theorem documentComment_keeps (text : String) : Keeps aside (documentComment text) := by
  mvcgen [documentComment]
  case vc1 h => exact ⟨h, h.rooted⟩

/-- A comment can be put at the end of the outermost element. -/
@[spec] theorem pageComment_keeps (text : String) : Keeps aside (pageComment text) := by
  mvcgen [pageComment]
  case vc1 h => exact ⟨h, h.outermost_lt⟩

/-! ### What is closed, and what is remembered -/

-- Work that only calls other work, or changes what the tree does not depend on, is opened where it
-- is done; lemmas are stated for the rest.
attribute [spec] enter resume restart forbidFrames setMarker forgetToMarker forgetFormatting
  openNamed readText closeThroughOf closeImpliedBut closeParagraph closeParagraphInScope

/-- The newest element can be closed. -/
@[spec] theorem close_keeps : Keeps aside close := by
  mvcgen [close] with exact Standing.close ‹_› (List.drop_sublist ..)

/-- Elements can be closed up to one and with it. -/
@[spec] theorem closeThrough_keeps (last : OpenElement → Bool) :
    Keeps aside (closeThrough last) := by
  mvcgen [closeThrough] with
    exact Standing.close ‹_› ((List.drop_sublist ..).trans (List.dropWhile_sublist _))

/-- Elements can be closed up to one. -/
@[spec] theorem closeTo_keeps (names : List String) : Keeps aside (closeTo names) := by
  mvcgen [closeTo] with exact Standing.close ‹_› (List.dropWhile_sublist _)

/-- Elements whose end tags may be left out can be closed. -/
@[spec] theorem closeImplied_keeps (names : List String) : Keeps aside (closeImplied names) := by
  mvcgen [closeImplied] with exact Standing.close ‹_› (List.dropWhile_sublist _)

/-- An element can be closed from between the others. -/
@[spec] theorem removeOpen_keeps (id : NodeId) : Keeps aside (removeOpen id) := by
  mvcgen [removeOpen] with exact Standing.close ‹_› List.filter_sublist

/-- Formatting is opened again as new elements. -/
@[spec] theorem reopenAll_keeps (tags : List Tag) : Keeps aside (reopenAll tags) := by
  induction tags with
  | nil => mvcgen [reopenAll]
  | cons tag rest ih => mvcgen [reopenAll, ih]

attribute [spec] reopenFormatting openFormatting

/-- Where content goes meanwhile is no matter. -/
@[spec] theorem fostered_keeps {α : Type} {work : Constructing α} (h : Keeps aside work) :
    Keeps aside (fostered work) := by
  mvcgen [fostered, h]

end RichDoc.Markup
