import RichDoc.Proofs.Doc.Loading

/-!
# Tokens stand for maps

A new attribute map takes the next token, and no token is handed out twice. So whatever maps have
been made, those with one token are one map. A loaded document holds maps that were made while it
was loaded, which makes the tokens of all its nodes and marks tell them apart.
-/

namespace RichDoc

/-- Tokens stand for maps: of the maps with a property, those with one token are one map. -/
def TokensHonest (p : Attrs → Prop) : Prop :=
  ∀ first second, p first → p second → first.id = second.id → first = second

/-- Tokens stay honest where fewer maps are considered. -/
theorem TokensHonest.mono {p q : Attrs → Prop} (h : TokensHonest p)
    (hq : ∀ attrs, q attrs → p attrs) : TokensHonest q := fun first second hfirst hsecond =>
  h first second (hq first hfirst) (hq second hsecond)

/-- Maps whose tokens tell them apart, as those that were made while the program ran. -/
structure Pool where
  has : Attrs → Prop
  apart : TokensHonest has

/-- There is one map. -/
def Pool.one (attrs : Attrs) : Pool where
  has := (· = attrs)
  apart := by
    rintro _ _ rfl rfl _
    rfl

/-- No map has attributes. -/
def Pool.blank : Pool where
  has attrs := attrs.fields = []
  apart := by
    rintro ⟨id, _⟩ ⟨_, _⟩ rfl rfl rfl
    rfl

/-! ### The maps of a document -/

/-- The maps of a node and of its marks, and of all nodes below it, have a property. -/
def Node.Maps (p : Attrs → Prop) (node : Node) : Prop :=
  ∀ x : Node, x.Inside node → p x.attrs ∧ ∀ mark ∈ x.marks, p mark.attrs

namespace Node.Maps

variable {p : Attrs → Prop} {node child : Node}

/-- The map of the node itself. -/
theorem attrs (h : node.Maps p) : p node.attrs := (h node (.self node)).1

/-- The maps of its marks. -/
theorem marks (h : node.Maps p) {mark : Mark} (hm : mark ∈ node.marks) : p mark.attrs :=
  (h node (.self node)).2 mark hm

/-- The maps at and below a child. -/
theorem content (h : node.Maps p) (hc : child ∈ node.content) : child.Maps p :=
  fun x hx => h x (.content hc hx)

/-- All maps of a node are its own, those of its marks and those of its children. -/
theorem intro (ha : p node.attrs) (hm : ∀ mark ∈ node.marks, p mark.attrs)
    (hc : ∀ child ∈ node.content, child.Maps p) : node.Maps p := by
  intro x hx
  cases hx with
  | self => exact ⟨ha, hm⟩
  | content hmem hinside => exact hc _ hmem x hinside

/-- Maps with a property have a weaker one. -/
theorem mono {q : Attrs → Prop} (h : node.Maps p) (hq : ∀ attrs, p attrs → q attrs) :
    node.Maps q := fun x hx =>
  ⟨hq _ (h x hx).1, fun mark hm => hq _ ((h x hx).2 mark hm)⟩

/-- Every node has maps of any kind. -/
theorem of_forall (h : ∀ attrs, p attrs) (node : Node) : node.Maps p :=
  fun x _ => ⟨h x.attrs, fun mark _ => h mark.attrs⟩

end Node.Maps

/-- A map is that of a node or of one of its marks, or of some node below it. -/
def Node.Holds (node : Node) (attrs : Attrs) : Prop :=
  ∃ x : Node, x.Inside node ∧ (attrs = x.attrs ∨ ∃ mark ∈ x.marks, attrs = mark.attrs)

/-- A map at or below a node is below a child, at a mark or at the node itself. -/
theorem Node.Holds.cases {node : Node} {attrs : Attrs} (h : node.Holds attrs) :
    (∃ child ∈ node.content, child.Holds attrs) ∨ (∃ mark ∈ node.marks, attrs = mark.attrs) ∨
      attrs = node.attrs := by
  obtain ⟨x, hx, hattrs⟩ := h
  cases hx with
  | self => exact Or.inr hattrs.symm
  | content hc hx => exact Or.inl ⟨_, hc, x, hx, hattrs⟩

/-- A node has the maps that it holds. -/
theorem Node.maps_holds (node : Node) : node.Maps node.Holds := fun x hx =>
  ⟨⟨x, hx, Or.inl rfl⟩, fun mark hm => ⟨x, hx, Or.inr ⟨mark, hm, rfl⟩⟩⟩

/-! ### Maps that were made -/

/-- Maps with a property have tokens from one number up to another, and these stand for them. -/
structure MadeBetween (s t : Nat) (p : Attrs → Prop) : Prop where
  le : s ≤ t
  old : ∀ attrs, p attrs → s ≤ attrs.id ∧ attrs.id < t
  honest : TokensHonest p

namespace MadeBetween

variable {s t u : Nat} {p q : Attrs → Prop}

/-- No map takes no token. -/
theorem none (s : Nat) : MadeBetween s s fun _ => False := ⟨Nat.le_refl s, nofun, nofun⟩

/-- A map takes one token. -/
theorem one {attrs : Attrs} (h : attrs.id = s) : MadeBetween s (s + 1) (· = attrs) where
  le := Nat.le_succ s
  old := by
    rintro _ rfl
    exact ⟨Nat.le_of_eq h.symm, by omega⟩
  honest := (Pool.one attrs).apart

/-- Maps that were made later have greater tokens. -/
theorem or (h : MadeBetween s t p) (h' : MadeBetween t u q) :
    MadeBetween s u fun attrs => p attrs ∨ q attrs where
  le := Nat.le_trans h.le h'.le
  old attrs hattrs := by
    rcases hattrs with hp | hq
    · exact ⟨(h.old attrs hp).1, Nat.lt_of_lt_of_le (h.old attrs hp).2 h'.le⟩
    · exact ⟨Nat.le_trans h.le (h'.old attrs hq).1, (h'.old attrs hq).2⟩
  honest first second hfirst hsecond hid := by
    rcases hfirst with hp | hq <;> rcases hsecond with hp' | hq'
    · exact h.honest first second hp hp' hid
    · have := (h.old first hp).2
      have := (h'.old second hq').1
      omega
    · have := (h'.old first hq).1
      have := (h.old second hp').2
      omega
    · exact h'.honest first second hq hq' hid

/-- Maps that were made are made if fewer of them are considered. -/
theorem mono (h : MadeBetween s t p) (hq : ∀ attrs, q attrs → p attrs) : MadeBetween s t q :=
  ⟨h.le, fun attrs hattrs => h.old attrs (hq attrs hattrs), h.honest.mono hq⟩

end MadeBetween

/-! ### Loaded documents -/

namespace Schema

variable {schema : Schema} {s t : Nat}

/-- A mark is loaded with a map of its own. -/
theorem made_of_mark {name : String} {given : Option Json.Fields} {mark : Mark}
    (h : schema.mark name given s = (.ok mark, t)) : MadeBetween s t (· = mark.attrs) := by
  rw [Schema.mark] at h
  cases htype : schema.markType? name with
  | none =>
    rw [htype] at h
    cases h
  | some type =>
    rw [htype] at h
    obtain ⟨attrs, u, hattrs, h⟩ := Building.bind_eq_ok.mp h
    cases h
    obtain ⟨hid, rfl⟩ := resolveAttrs_eq_ok hattrs
    exact .one hid

/-- Marks are loaded with maps of their own. -/
theorem made_of_resolveMarks {forms : List MarkForm} {marks : List Mark}
    (h : schema.resolveMarks forms s = (.ok marks, t)) :
    MadeBetween s t fun attrs => ∃ mark ∈ marks, attrs = mark.attrs := by
  induction forms generalizing s marks with
  | nil =>
    cases h
    exact (MadeBetween.none _).mono fun _ ⟨_, hmark, _⟩ => absurd hmark List.not_mem_nil
  | cons form rest ih =>
    rw [resolveMarks] at h
    obtain ⟨mark, u, hmark, h⟩ := Building.bind_eq_ok.mp h
    obtain ⟨marks, v, hmarks, h⟩ := Building.bind_eq_ok.mp h
    cases h
    exact ((made_of_mark hmark).or (ih hmarks)).mono (by simp)

/-- The maps of a node were made if those of its marks and of its content were made before its
own. -/
theorem madeBetween_holds {u v : Nat} {marks : List Mark} {node : Node}
    (hmarks : MadeBetween s u fun attrs => ∃ mark ∈ marks, attrs = mark.attrs)
    (hcontent : MadeBetween u v fun attrs => ∃ child ∈ node.content, child.Holds attrs)
    (hid : node.attrs.id = v) (hset : node.marks = Mark.setOf marks) :
    MadeBetween s (v + 1) node.Holds := by
  refine ((hmarks.or hcontent).or (.one hid)).mono fun attrs hattrs => ?_
  rcases hattrs.cases with hchild | ⟨mark, hmark, he⟩ | he
  · exact Or.inl (Or.inr hchild)
  · exact Or.inl (Or.inl ⟨mark, Mark.mem_setOf (hset ▸ hmark), he⟩)
  · exact Or.inr he

mutual

/-- A node is loaded with new maps at and below it. -/
theorem made_of_resolveNode : (form : NodeForm) → {s t : Nat} → {node : Node} →
    schema.resolveNode form s = (.ok node, t) → MadeBetween s t node.Holds
  | ⟨typeName, attrs, content, marks, text⟩, s, t, node, h => by
    rw [resolveNode] at h
    obtain ⟨resolved, u, hmarks, h⟩ := Building.bind_eq_ok.mp h
    have hmarks := made_of_resolveMarks hmarks
    by_cases htext : typeName = textTypeName
    · rw [if_pos htext] at h
      unfold resolveText at h
      dsimp only at h
      split at h
      · cases h
      cases text with
      | none => cases h
      | some text =>
        obtain ⟨hid, rfl, hnil, hset⟩ := made_of_text h
        refine madeBetween_holds hmarks ?_ hid hset
        rw [hnil]
        exact (MadeBetween.none u).mono fun _ ⟨_, hchild, _⟩ => absurd hchild List.not_mem_nil
    · rw [if_neg htext] at h
      split at h
      · cases h
      · obtain ⟨nodes, v, hnodes, h⟩ := Building.bind_eq_ok.mp h
        obtain ⟨hid, rfl, rfl, hset⟩ := made_of_node h
        exact madeBetween_holds hmarks (made_of_resolveNodes content hnodes) hid hset

/-- Nodes are loaded with new maps at and below them. -/
theorem made_of_resolveNodes : (forms : List NodeForm) → {s t : Nat} → {nodes : List Node} →
    schema.resolveNodes forms s = (.ok nodes, t) →
    MadeBetween s t fun attrs => ∃ node ∈ nodes, node.Holds attrs
  | [], s, _, _, h => by
    rw [resolveNodes] at h
    cases h
    exact (MadeBetween.none _).mono fun _ ⟨_, hnode, _⟩ => absurd hnode List.not_mem_nil
  | form :: rest, _, _, _, h => by
    rw [resolveNodes] at h
    obtain ⟨node, u, hnode, h⟩ := Building.bind_eq_ok.mp h
    obtain ⟨nodes, v, hnodes, h⟩ := Building.bind_eq_ok.mp h
    cases h
    exact ((made_of_resolveNode form hnode).or (made_of_resolveNodes rest hnodes)).mono (by simp)

end

/-- The tokens of a loaded document stand for its maps. -/
theorem Loads.tokensHonest {node : Node} (h : schema.Loads node) : TokensHonest node.Holds := by
  obtain ⟨form, s, t, hform⟩ := h.exists_form
  exact (made_of_resolveNode form hform).honest

/-- The maps of a loaded document. -/
def Loads.pool {node : Node} (h : schema.Loads node) : Pool := ⟨node.Holds, h.tokensHonest⟩

/-- The maps of the content of a loaded document are among those of the document. -/
theorem Loads.maps_content {node : Node} (h : schema.Loads node) :
    ∀ child ∈ node.content, child.Maps h.pool.has := fun _ hc => node.maps_holds.content hc

end Schema

end RichDoc
