import RichDoc.Build.Script
import Mathlib.Logic.Relation

/-!
# How a script grows

A script numbers its nodes in the order of their creation, and its append calls are the edges of
what it builds. Work on a script only adds to it: new nodes, and edges whose child is one of them.
Seen from the nodes that were there before, nothing changes below or above any of them but where
such an edge hangs a new node on one of them.
-/

namespace RichDoc

/-- The parent and the child of an append call. -/
def Call.edge? : Call → Option (Nat × Nat)
  | .append parent child => some (parent, child)
  | _ => none

/-- To be at or below a node by way of edges. -/
def Reaches (edges : List (Nat × Nat)) : Nat → Nat → Prop :=
  Relation.ReflTransGen fun parent child => (parent, child) ∈ edges

namespace Reaches

/-- Each node is reached from itself. -/
theorem refl (edges : List (Nat × Nat)) (node : Nat) : Reaches edges node node :=
  Relation.ReflTransGen.refl

/-- What is reached from a reached node is reached. -/
theorem trans {edges : List (Nat × Nat)} {a b c : Nat} (h : Reaches edges a b)
    (h' : Reaches edges b c) : Reaches edges a c :=
  Relation.ReflTransGen.trans h h'

/-- A node that is appended is reached from its parent. -/
theorem edge {edges : List (Nat × Nat)} {a b : Nat} (h : (a, b) ∈ edges) : Reaches edges a b :=
  Relation.ReflTransGen.single h

/-- More is reached by more edges. -/
theorem mono {edges more : List (Nat × Nat)} (hs : ∀ e ∈ edges, e ∈ more) {a b : Nat}
    (h : Reaches edges a b) : Reaches more a b :=
  Relation.ReflTransGen.mono (fun _ _ he => hs _ he) _ _ h

/-- More calls take nothing away. -/
theorem append {edges : List (Nat × Nat)} {a b : Nat} (h : Reaches edges a b)
    (more : List (Nat × Nat)) : Reaches (edges ++ more) a b :=
  h.mono fun _ he => List.mem_append_left _ he

end Reaches

namespace Script

/-- The append calls of a script, in order. -/
def edges (script : Script) : List (Nat × Nat) := script.calls.toList.filterMap Call.edge?

/-- All append calls name nodes that have been created. -/
def Closed (script : Script) : Prop :=
  ∀ e ∈ script.edges, e.1 ≤ script.count ∧ e.2 ≤ script.count

/-- An empty script appends nothing. -/
theorem closed_empty : empty.Closed := List.forall_mem_nil _

/-- What reaches a created node is a created node. -/
theorem Closed.le_of_reaches {script : Script} (h : script.Closed) {a b : Nat}
    (hr : Reaches script.edges a b) (hb : b ≤ script.count) : a ≤ script.count := by
  induction hr with
  | refl => exact hb
  | tail _ hxy ih => exact ih (h _ hxy).1

/-- A call adds an edge if it appends. -/
@[simp] theorem edges_record (script : Script) (call : Call) :
    (script.record call).edges = script.edges ++ call.edge?.toList := by
  cases h : call.edge? <;> simp [record, edges, h]

/-- A new element is one handle more. -/
@[simp] theorem count_createElement (script : Script) (tag : String) :
    (TreeBuilder.createElement script tag).2.count = script.count + 1 := rfl

/-- A new element is appended to nothing. -/
@[simp] theorem edges_createElement (script : Script) (tag : String) :
    (TreeBuilder.createElement script tag).2.edges = script.edges := by
  simp [TreeBuilder.createElement, create, edges, Call.edge?]

/-- A new text is appended to nothing. -/
@[simp] theorem edges_createText (script : Script) (text : String) :
    (TreeBuilder.createText script text).2.edges = script.edges := by
  simp [TreeBuilder.createText, create, edges, Call.edge?]

/-- A new fragment is appended to nothing. -/
@[simp] theorem edges_createFragment (script : Script) :
    (TreeBuilder.createFragment script).2.edges = script.edges := by
  simp [TreeBuilder.createFragment, create, edges, Call.edge?]

/-- An attribute is no handle. -/
@[simp] theorem count_setAttribute (script : Script) (node : Nat) (key value : String) :
    (TreeBuilder.setAttribute script node key value).count = script.count := rfl

/-- An attribute is no edge. -/
@[simp] theorem edges_setAttribute (script : Script) (node : Nat) (key value : String) :
    (TreeBuilder.setAttribute script node key value).edges = script.edges :=
  (edges_record script _).trans (List.append_nil _)

/-- Appending makes no handle. -/
@[simp] theorem count_appendChild (script : Script) (parent child : Nat) :
    (TreeBuilder.appendChild script parent child).count = script.count := rfl

/-- Appending adds the edge from the parent to the child. -/
@[simp] theorem edges_appendChild (script : Script) (parent child : Nat) :
    (TreeBuilder.appendChild script parent child).edges = script.edges ++ [(parent, child)] :=
  edges_record script _

/-- One script goes on from another: new edges lead to new nodes, no two to the same one, each from
an older node that is new too or one of some outer nodes. -/
def Grows (outer : Nat → Prop) (before after : Script) : Prop :=
  before.count ≤ after.count ∧
    ∃ added, after.edges = before.edges ++ added ∧ (added.map Prod.snd).Nodup ∧
      ∀ e ∈ added, (before.count < e.1 ∨ outer e.1) ∧ e.1 < e.2 ∧ before.count < e.2 ∧
        e.2 ≤ after.count

namespace Grows

variable {outer : Nat → Prop} {s t u : Script}

/-- No edges, and perhaps new nodes. -/
theorem of_edges_eq (hc : s.count ≤ t.count) (he : t.edges = s.edges) : Grows outer s t :=
  ⟨hc, [], by rw [he, List.append_nil], List.nodup_nil, fun _ h => absurd h List.not_mem_nil⟩

/-- A script grows into itself. -/
theorem refl (outer : Nat → Prop) (s : Script) : Grows outer s s :=
  of_edges_eq (Nat.le_refl _) rfl

/-- What grows at few nodes grows at more. -/
theorem mono {wider : Nat → Prop} (h : Grows outer s t) (hw : ∀ x, outer x → wider x) :
    Grows wider s t := by
  obtain ⟨hc, added, he, hn, ha⟩ := h
  exact ⟨hc, added, he, hn, fun e h => ⟨(ha e h).1.imp_right (hw _), (ha e h).2⟩⟩

/-- Growth in two parts, when the outer nodes of the second are outer or new in the first. -/
theorem trans {inner : Nat → Prop} (h : Grows outer s t) (h' : Grows inner t u)
    (hi : ∀ x, inner x → outer x ∨ s.count < x) : Grows outer s u := by
  obtain ⟨hc, added, he, hn, ha⟩ := h
  obtain ⟨hc', more, he', hn', hm⟩ := h'
  have hdisjoint : ∀ x ∈ added.map Prod.snd, ∀ y ∈ more.map Prod.snd, x ≠ y := by
    simp only [List.mem_map]
    rintro x ⟨e, he, rfl⟩ y ⟨e', he', rfl⟩
    have h4 := (ha e he).2.2.2
    have h3 := (hm e' he').2.2.1
    omega
  refine ⟨Nat.le_trans hc hc', added ++ more, by rw [he', he, List.append_assoc], ?_, ?_⟩
  · rw [List.map_append]
    exact List.nodup_append.mpr ⟨hn, hn', hdisjoint⟩
  intro e hmem
  rcases List.mem_append.mp hmem with hmem | hmem
  · obtain ⟨h1, h2, h3, h4⟩ := ha e hmem
    exact ⟨h1, h2, h3, by omega⟩
  · obtain ⟨h1, h2, h3, h4⟩ := hm e hmem
    refine ⟨?_, h2, by omega, h4⟩
    rcases h1 with h1 | h1
    · exact Or.inl (by omega)
    · exact (hi _ h1).symm

/-- New nodes that are closed in themselves can be hung on an older node by their first one. -/
theorem hang (h : Grows (fun _ => False) s t) (hr : s.count < t.count) {parent : Nat}
    (hp : parent ≤ s.count) (ho : outer parent) :
    Grows outer s (TreeBuilder.appendChild t parent (s.count + 1)) := by
  obtain ⟨hc, added, he, hn, ha⟩ := h
  refine ⟨hc, added ++ [(parent, s.count + 1)], ?_, ?_, ?_⟩
  · rw [edges_appendChild, he, List.append_assoc]
  · have hfresh : ∀ x ∈ added.map Prod.snd, ∀ y ∈ [s.count + 1], x ≠ y := by
      simp only [List.mem_map, List.mem_singleton]
      rintro x ⟨e, he, rfl⟩ y rfl
      obtain ⟨h1, h2, -⟩ := ha e he
      have h1 := h1.resolve_right id
      omega
    rw [List.map_append]
    exact List.nodup_append.mpr ⟨hn, List.pairwise_singleton _ _, hfresh⟩
  · intro e hmem
    rcases List.mem_append.mp hmem with hmem | hmem
    · obtain ⟨h1, h2⟩ := ha e hmem
      exact ⟨h1.imp_right False.elim, h2⟩
    · obtain rfl := List.mem_singleton.mp hmem
      exact ⟨Or.inr ho, by dsimp only; omega, Nat.lt_succ_self _, hr⟩

/-- The edges that were there stay in front. -/
theorem edges_isPrefix (h : Grows outer s t) : s.edges <+: t.edges := by
  obtain ⟨_, added, he, -⟩ := h
  exact ⟨added, he.symm⟩

/-- What is reached stays reached. -/
theorem reaches (h : Grows outer s t) {a b : Nat} (hr : Reaches s.edges a b) :
    Reaches t.edges a b :=
  hr.mono fun _ he => h.edges_isPrefix.subset he

/-- Edges stay between handles that are there. -/
theorem closed (h : Grows outer s t) (hs : s.Closed) : t.Closed := by
  obtain ⟨hc, added, he, -, ha⟩ := h
  intro e hmem
  rw [he] at hmem
  rcases List.mem_append.mp hmem with hmem | hmem
  · have h := hs e hmem
    exact ⟨by omega, by omega⟩
  · obtain ⟨-, h2, -, h4⟩ := ha e hmem
    exact ⟨by omega, h4⟩

/-- Nothing new comes above a node that was there. -/
theorem reaches_old (h : Grows outer s t) (hs : s.Closed) {a b : Nat} (hb : b ≤ s.count)
    (hr : Reaches t.edges a b) : Reaches s.edges a b := by
  obtain ⟨hc, added, he, -, ha⟩ := h
  rw [he] at hr
  induction hr with
  | refl => exact .refl _ a
  | @tail x y _ hxy ih =>
    rcases List.mem_append.mp hxy with hxy | hxy
    · exact (ih (hs _ hxy).1).trans (.edge hxy)
    · have hy := (ha _ hxy).2.2.1
      dsimp only at hy
      omega

/-- The way from an older node to a new one leads through an outer node. -/
theorem reaches_new (h : Grows outer s t) (hs : s.Closed) (ho : ∀ x, outer x → x ≤ s.count)
    {a b : Nat} (ha : a ≤ s.count) (hb : s.count < b) (hr : Reaches t.edges a b) :
    ∃ x, outer x ∧ Reaches s.edges a x := by
  obtain ⟨-, added, he, -, hadd⟩ := id h
  induction hr with
  | refl => omega
  | @tail x y hax hxy ih =>
    rw [he] at hxy
    rcases List.mem_append.mp hxy with hxy | hxy
    · have hy := (hs _ hxy).2
      dsimp only at hy
      omega
    · rcases (hadd _ hxy).1 with hx | hx
      · exact ih hx
      · exact ⟨x, hx, h.reaches_old hs (ho x hx) hax⟩

/-- The only edge to the first new node is the one by which it is hung. -/
theorem reaches_hung (h : Grows (fun _ => False) s t) (hs : s.Closed) {parent a : Nat}
    (hr : Reaches (TreeBuilder.appendChild t parent (s.count + 1)).edges a (s.count + 1)) :
    a = s.count + 1 ∨ Reaches (TreeBuilder.appendChild t parent (s.count + 1)).edges a parent := by
  obtain ⟨-, added, he, -, hadd⟩ := h
  rcases Relation.ReflTransGen.cases_tail hr with heq | ⟨x, hax, hxy⟩
  · exact Or.inl heq.symm
  · rw [edges_appendChild, he] at hxy
    rcases List.mem_append.mp hxy with hxy | hxy
    · rcases List.mem_append.mp hxy with hxy | hxy
      · have hle := (hs _ hxy).2
        dsimp only at hle
        omega
      · obtain ⟨h1, h2, -⟩ := hadd _ hxy
        have h1 := h1.resolve_right id
        dsimp only at h1 h2
        omega
    · obtain ⟨rfl, -⟩ := Prod.mk.inj (List.mem_singleton.mp hxy)
      exact Or.inr hax

end Grows

/-- A range of nodes that no edge enters from outside. -/
def Sealed (edges : List (Nat × Nat)) (first last : Nat) : Prop :=
  ∀ e ∈ edges, first < e.2 → e.2 ≤ last → first < e.1 ∧ e.1 ≤ last

/-- The new nodes of closed growth are sealed. -/
theorem Grows.sealed {s t : Script} (h : Grows (fun _ => False) s t) (hs : s.Closed) :
    Sealed t.edges s.count t.count := by
  obtain ⟨-, added, he, -, hadd⟩ := h
  intro e hmem h1 h2
  rw [he] at hmem
  rcases List.mem_append.mp hmem with hmem | hmem
  · have h3 := (hs e hmem).2
    omega
  · obtain ⟨h3, h4, -, -⟩ := hadd e hmem
    exact ⟨h3.resolve_right id, by omega⟩

/-- Older nodes that are sealed stay sealed. -/
theorem Sealed.grows {outer : Nat → Prop} {s t : Script} {first last : Nat}
    (hr : Sealed s.edges first last) (h : Grows outer s t) (hl : last ≤ s.count) :
    Sealed t.edges first last := by
  obtain ⟨-, added, he, -, hadd⟩ := h
  intro e hmem h1 h2
  rw [he] at hmem
  rcases List.mem_append.mp hmem with hmem | hmem
  · exact hr e hmem h1 h2
  · have h3 := (hadd e hmem).2.2.1
    omega

/-- An edge to an older node leaves a range sealed. -/
theorem Sealed.append_edge {edges : List (Nat × Nat)} {first last : Nat}
    (h : Sealed edges first last) {child : Nat} (hc : child ≤ first) (parent : Nat) :
    Sealed (edges ++ [(parent, child)]) first last := by
  intro e hmem h1 h2
  rcases List.mem_append.mp hmem with hmem | hmem
  · exact h e hmem h1 h2
  · obtain rfl := List.mem_singleton.mp hmem
    dsimp only at h1
    omega

/-- Nothing outside reaches a sealed node. -/
theorem Sealed.not_reaches {edges : List (Nat × Nat)} {first last : Nat}
    (h : Sealed edges first last) {a b : Nat} (ha : a ≤ first ∨ last < a) (hb : first < b)
    (hl : b ≤ last) : ¬Reaches edges a b := by
  intro hr
  induction hr with
  | refl => omega
  | @tail x y _ hxy ih =>
    obtain ⟨hx, hx'⟩ := h _ hxy hb hl
    exact ih hx hx'

end Script

end RichDoc
