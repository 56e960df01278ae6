import RichDoc.Proofs.Build.Filling
import RichDoc.Proofs.Build.Growth
import RichDoc.Proofs.Build.Simulation
import RichDoc.Proofs.Dom.Runs

/-!
# Scripts in a store

A script can be read as a tree: what the payload of a node is, and which children it has, follows
from the calls. If the script hangs each of its nodes at most once, and on an older one, then work
that makes these calls makes this tree in every store, whatever is there already.
-/

namespace RichDoc

/-- The payload of a node after a call. -/
def Call.dataAfter (node : Nat) (data : NodeData) : Call → NodeData
  | .element id tag => if id = node then .element (.html tag) [] else data
  | .text id value => if id = node then .text value else data
  | .fragment id => if id = node then .document else data
  | .attribute id key value => if id = node then data.withAttribute (.html key) value else data
  | .append _ _ => data

namespace Script

/-! ### The tree of a script -/

/-- The payload of a node. -/
def data (script : Script) (node : Nat) : NodeData :=
  script.calls.toList.foldl (Call.dataAfter node) .document

/-- The children of a node, in the order in which they were appended. -/
def children (script : Script) (node : Nat) : List Nat :=
  script.edges.filterMap fun e => if e.1 = node then some e.2 else none

variable {script : Script}

theorem data_record (script : Script) (call : Call) (node : Nat) :
    (script.record call).data node = call.dataAfter node (script.data node) := by
  simp only [data, record, Array.toList_push, List.foldl_append, List.foldl_cons, List.foldl_nil]

theorem data_create (script : Script) (call : Nat → Call) (node : Nat) :
    (script.create call).2.data node =
      (call (script.count + 1)).dataAfter node (script.data node) :=
  data_record script _ node

theorem mem_children {node child : Nat} : child ∈ script.children node ↔
    (node, child) ∈ script.edges := by
  rw [children, List.mem_filterMap]
  constructor
  · rintro ⟨⟨parent, other⟩, he, h⟩
    split at h
    · rename_i hparent
      obtain rfl := Option.some.inj h
      exact hparent ▸ he
    · cases h
  · exact fun h => ⟨_, h, if_pos rfl⟩

theorem children_congr {other : Script} (h : other.edges = script.edges) (node : Nat) :
    other.children node = script.children node := by
  rw [children, children, h]

theorem children_append (script : Script) (parent child node : Nat) :
    (TreeBuilder.appendChild script parent child : Script).children node =
      script.children node ++ if node = parent then [child] else [] := by
  rw [children, edges_appendChild, List.filterMap_append, children]
  congr 1
  by_cases h : node = parent
  · rw [if_pos h, List.filterMap_cons, if_pos h.symm]
    rfl
  · rw [if_neg h, List.filterMap_cons, if_neg (Ne.symm h)]
    rfl

/-- Each node is hung at most once, and on an older one. -/
structure Orderly (script : Script) : Prop where
  nodup : (script.edges.map Prod.snd).Nodup
  older : ∀ e ∈ script.edges, 0 < e.1 ∧ e.1 < e.2

/-- Work that makes new nodes and hangs nothing on older ones is orderly. -/
theorem Grows.orderly (h : Grows (fun _ => False) empty script) : script.Orderly := by
  obtain ⟨-, added, he, hn, ha⟩ := h
  have hedges : script.edges = added := by rw [he]; rfl
  rw [← hedges] at hn ha
  exact ⟨hn, fun e hmem => ⟨(ha e hmem).1.resolve_right id, (ha e hmem).2.1⟩⟩

/-- The calls of a script are the first calls of another. -/
def Begins (script final : Script) : Prop := script.calls.toList <+: final.calls.toList

theorem Begins.of_record {final : Script} {call : Call} (h : (script.record call).Begins final) :
    script.Begins final := by
  rw [Begins, record, Array.toList_push] at h
  exact (List.prefix_append _ _).trans h

theorem Begins.edges_isPrefix {final : Script} (h : script.Begins final) :
    script.edges <+: final.edges := List.IsPrefix.filterMap _ h

/-- What begins an orderly script is orderly. -/
theorem Orderly.of_begins {final : Script} (h : final.Orderly) (hb : script.Begins final) :
    script.Orderly := by
  have hedges := hb.edges_isPrefix
  exact ⟨(hedges.sublist.map _).nodup h.nodup, fun e he => h.older e (hedges.subset he)⟩

end Script

open Script

namespace Dom

variable {start dom : Dom} {script : Script}

/-! ### Scripts in a store -/

/-- What was built on top of a store is the tree of a script: the new nodes are those of the script,
in their order. -/
structure Embodies (start : Dom) (script : Script) (dom : Dom) : Prop where
  grows : Grows (fun _ => False) start dom
  size_eq : dom.size = start.size + script.count
  closed : script.Closed
  orderly : script.Orderly
  data_eq : ∀ k < script.count,
    dom.data? (some (start.size + k)) = some (script.data (k + 1))
  children_eq : ∀ k < script.count,
    dom.children (some (start.size + k)) =
      (script.children (k + 1)).map fun child => start.size + (child - 1)

namespace Embodies

theorem empty (hs : start.WellFormed) : Embodies start .empty start where
  grows := .refl _ hs
  size_eq := rfl
  closed := closed_empty
  orderly := ⟨List.nodup_nil, List.forall_mem_nil _⟩
  data_eq k hk := absurd hk (Nat.not_lt_zero k)
  children_eq k hk := absurd hk (Nat.not_lt_zero k)

/-- Above a node that a script hung on nothing is nothing, and above the others are the nodes of the
script on which it hung them. -/
theorem parent_eq (h : Embodies start script dom) {k q : Nat}
    (hq : dom.parent (some (start.size + k)) = some q) :
    ∃ p, q = start.size + p ∧ (p + 1, k + 1) ∈ script.edges := by
  have hmem := h.grows.after.mem_children_iff.mpr hq
  by_cases hold : q < start.size
  · rw [h.grows.children_eq q hold not_false] at hmem
    have hlt : start.size + k < start.size := h.grows.before.lt_size_of_mem_children hmem
    omega
  · obtain ⟨p, rfl⟩ := Nat.exists_eq_add_of_le (Nat.le_of_not_lt hold)
    have hsize : start.size + p < start.size + script.count :=
      h.size_eq ▸ h.grows.after.parents _ _ hq
    rw [h.children_eq p (by omega), List.mem_map] at hmem
    obtain ⟨child, hchild, he⟩ := hmem
    have hedge := mem_children.mp hchild
    have holder : p + 1 < child := (h.orderly.older _ hedge).2
    have he' : start.size + (child - 1) = start.size + k := he
    obtain rfl : child = k + 1 := by omega
    exact ⟨p, rfl, hedge⟩

/-- What is at or above a new node was made before it. -/
theorem le_of_under (h : Embodies start script dom) {k y : Nat}
    (hu : dom.Under (start.size + k) y) : y ≤ start.size + k := by
  induction hu with
  | refl => exact Nat.le_refl _
  | @tail q y hq hy ih =>
    by_cases hold : q < start.size
    · have hparent := h.grows.parent_eq q hold
      rw [show dom.parent (some q) = some y from hy] at hparent
      have hy : y < start.size := h.grows.before.parents _ _ hparent.symm
      have hy' : y < start.size + k := Nat.lt_of_lt_of_le hy (Nat.le_add_right _ _)
      exact Nat.le_of_lt hy'
    · obtain ⟨p, rfl⟩ := Nat.exists_eq_add_of_le (Nat.le_of_not_lt hold)
      obtain ⟨r, rfl, hedge⟩ := h.parent_eq hy
      have holder : r + 1 < p + 1 := (h.orderly.older _ hedge).2
      have ih' : start.size + p ≤ start.size + k := ih
      show start.size + r ≤ start.size + k
      omega

/-- A node is created. -/
theorem create (h : Embodies start script dom) {call : Nat → Call} {data : NodeData}
    (hnew : ∀ old, (call (script.count + 1)).dataAfter (script.count + 1) old = data)
    (hold : ∀ node ≠ script.count + 1, ∀ old,
      (call (script.count + 1)).dataAfter node old = old)
    (hedge : (call (script.count + 1)).edge? = none) :
    Embodies start (script.create call).2 (dom.create data).2 := by
  have hedges : (script.create call).2.edges = script.edges := by
    rw [show (script.create call).2.edges = script.edges ++
      (call (script.count + 1)).edge?.toList from edges_record .., hedge, Option.toList_none,
      List.append_nil]
  have hsame := sameLinks_create dom data
  have hsize : dom.size ≤ (dom.create data).2.size := by rw [size_create]; exact Nat.le_succ _
  have hcount : (script.create call).2.count = script.count + 1 := rfl
  refine ⟨h.grows.sameLinks hsame hsize fun id hid => ?_, ?_, ?_, ?_, fun k hk => ?_,
    fun k hk => ?_⟩
  · rw [data?_create, if_neg (Nat.ne_of_lt (Nat.lt_of_lt_of_le hid h.grows.size_le))]
  · rw [size_create, h.size_eq, hcount, Nat.add_assoc]
  · intro e he
    rw [hedges] at he
    have hle := h.closed e he
    exact ⟨Nat.le_succ_of_le hle.1, Nat.le_succ_of_le hle.2⟩
  · exact ⟨hedges ▸ h.orderly.nodup, hedges ▸ h.orderly.older⟩
  · rw [data?_create, data_create, h.size_eq]
    by_cases hlast : k = script.count
    · rw [if_pos (congrArg _ hlast), hlast, hnew]
    · rw [if_neg fun he => hlast (Nat.add_left_cancel he), h.data_eq k (by omega),
        hold _ fun he => hlast (Nat.add_right_cancel he)]
  · rw [hsame.children_eq h.grows.after, children_congr hedges]
    by_cases hlast : k = script.count
    · have hnone : script.children (k + 1) = [] := by
        refine List.eq_nil_iff_forall_not_mem.mpr fun child hchild => ?_
        have hle := (h.closed _ (mem_children.mp hchild)).1
        exact absurd hle (by dsimp only; omega)
      rw [hnone, h.grows.after.children_of_le (by rw [h.size_eq, hlast]), List.map_nil]
    · exact h.children_eq k (by omega)

/-- An attribute is set. -/
theorem setAttribute (h : Embodies start script dom) {k : Nat} (key value : String) :
    Embodies start (TreeBuilder.setAttribute script (k + 1) key value)
      (dom.setAttribute (some (start.size + k)) (.html key) value) := by
  have hsame := sameLinks_setAttribute dom (some (start.size + k)) (.html key) value
  have hsize : (dom.setAttribute (some (start.size + k)) (.html key) value).size = dom.size :=
    size_setAttribute ..
  have hedges := edges_setAttribute script (k + 1) key value
  refine ⟨h.grows.sameLinks hsame (Nat.le_of_eq hsize.symm) fun id hid => ?_,
    hsize.trans h.size_eq, fun e he => h.closed e (hedges ▸ he), ?_, fun j hj => ?_,
    fun j hj => ?_⟩
  · rw [data?_setAttribute,
      if_neg (Nat.ne_of_lt (Nat.lt_of_lt_of_le hid (Nat.le_add_right _ _)))]
  · exact ⟨hedges.symm ▸ h.orderly.nodup, hedges.symm ▸ h.orderly.older⟩
  · rw [data?_setAttribute, show TreeBuilder.setAttribute script (k + 1) key value =
      script.record (.attribute (k + 1) key value) from rfl, data_record, Call.dataAfter,
      h.data_eq j hj, Option.map_some]
    by_cases hk : j = k
    · rw [if_pos (congrArg _ hk), if_pos (congrArg (· + 1) hk.symm)]
    · rw [if_neg fun he => hk (Nat.add_left_cancel he),
        if_neg fun he => hk (Nat.add_right_cancel he).symm]
  · rw [hsame.children_eq h.grows.after, h.children_eq j hj, children_congr hedges]

/-- A node that hangs on nothing is hung on an older one. -/
theorem append (h : Embodies start script dom) {p x : Nat} (hp : p < script.count)
    (hx : x < script.count)
    (ho : (TreeBuilder.appendChild script (p + 1) (x + 1) : Script).Orderly) :
    Embodies start (TreeBuilder.appendChild script (p + 1) (x + 1))
      (dom.append (some (start.size + p)) (some (start.size + x))) := by
  have hedges := edges_appendChild script (p + 1) (x + 1)
  obtain ⟨hnodup, holder⟩ := id ho
  rw [hedges] at hnodup holder
  have hlt : p + 1 < x + 1 :=
    (holder (p + 1, x + 1) (List.mem_append_right _ (List.mem_singleton.mpr rfl))).2
  have hp' : start.size + p < dom.size := by rw [h.size_eq]; omega
  have hx' : start.size + x < dom.size := by rw [h.size_eq]; omega
  have hdetached : dom.parent (some (start.size + x)) = none := by
    by_contra hne
    obtain ⟨q, hq⟩ := Option.ne_none_iff_exists'.mp hne
    obtain ⟨p', -, hedge⟩ := h.parent_eq hq
    rw [List.map_append, List.nodup_append] at hnodup
    exact hnodup.2.2 (x + 1) (List.mem_map.mpr ⟨_, hedge, rfl⟩) (x + 1) List.mem_cons_self rfl
  have hunder : ¬dom.Under (start.size + p) (start.size + x) := fun hu =>
    absurd (h.le_of_under hu) (by omega)
  obtain ⟨hr, hparent⟩ := h.grows.after.append_detached hp' hx' hdetached hunder
  refine ⟨h.grows.append_new (Or.inr (Nat.le_add_right _ _)) (Nat.le_add_right _ _) hr hparent,
    hr.size_eq.trans h.size_eq, fun e he => ?_, ho, fun k hk => ?_, fun k hk => ?_⟩
  · rw [hedges] at he
    rcases List.mem_append.mp he with he | he
    · exact h.closed e he
    · obtain rfl := List.mem_singleton.mp he
      exact ⟨hp, hx⟩
  · rw [hr.data_eq, h.data_eq k hk]
    exact congrArg some (data_record script (.append (p + 1) (x + 1)) (k + 1)).symm
  · rw [hr.children_eq, children_append, List.map_append, h.children_eq k hk]
    congr 1
    by_cases hkp : k = p
    · rw [if_pos (congrArg _ hkp), if_pos (congrArg (· + 1) hkp)]
      rfl
    · rw [if_neg fun he => hkp (Nat.add_left_cancel he),
        if_neg fun he => hkp (Nat.add_right_cancel he)]
      rfl

/-! ### What is built in a store -/

/-- The outline of a node is the same in all stores. -/
theorem outline_eq (h : Embodies start script dom) {start' dom' : Dom}
    (h' : Embodies start' script dom') (hole : Option Nat) {k : Nat} (hk : k < script.count) :
    (dom.tree (some (start.size + k))).outline (hole.map (start.size + ·)) =
      (dom'.tree (some (start'.size + k))).outline (hole.map (start'.size + ·)) := by
  have hhole : ∀ base : Nat,
      decide (hole.map (base + ·) = some (base + k)) = decide (hole = some k) := by
    intro base
    rw [decide_eq_decide]
    cases hole with
    | none => exact iff_of_false nofun nofun
    | some j => simp only [Option.map_some, Option.some.injEq, Nat.add_left_cancel_iff]
  have hkids : ∀ child ∈ script.children (k + 1),
      (dom.tree (some (start.size + (child - 1)))).outline (hole.map (start.size + ·)) =
        (dom'.tree (some (start'.size + (child - 1)))).outline (hole.map (start'.size + ·)) := by
    intro child hchild
    have hedge := mem_children.mp hchild
    have hlt : k + 1 < child := (h.orderly.older _ hedge).2
    have hle : child ≤ script.count := (h.closed _ hedge).2
    exact outline_eq h h' hole (by omega)
  rw [(h.grows.after.tree_of_data? (h.data_eq k hk)).2,
    (h'.grows.after.tree_of_data? (h'.data_eq k hk)).2, Tree.outline, Tree.outline,
    outlines_childTrees, outlines_childTrees, h.children_eq k hk, h'.children_eq k hk,
    List.map_map, List.map_map, hhole start.size, hhole start'.size]
  exact congrArg _ (List.map_congr_left hkids)
termination_by script.count - k

/-- A script makes the same tree in every store. -/
theorem exists_makes {script : Script} (hpos : 0 < script.count) (hole : Option Nat)
    (hh : ∀ h ∈ hole, h < script.count) :
    ∃ outline, ∀ {start dom : Dom}, Embodies start script dom →
      Makes start dom ⟨start.size, hole.map (start.size + ·)⟩ outline := by
  by_cases hsome : ∃ start dom, Embodies start script dom
  · obtain ⟨start', dom', h'⟩ := hsome
    refine ⟨(dom'.tree (some (start'.size + 0))).outline (hole.map (start'.size + ·)), ?_⟩
    intro start dom h
    refine ⟨h.grows, ⟨Nat.le_refl _, ?_⟩, ?_, ?_, h.outline_eq h' hole hpos⟩
    · rw [h.size_eq]
      exact Nat.lt_add_of_pos_right hpos
    · by_contra hne
      obtain ⟨q, hq⟩ := Option.ne_none_iff_exists'.mp hne
      obtain ⟨p, -, hedge⟩ := h.parent_eq (k := 0) hq
      have holder : p + 1 < 0 + 1 := (h.orderly.older _ hedge).2
      omega
    · intro x hx
      obtain ⟨k, hk, rfl⟩ := Option.map_eq_some_iff.mp hx
      refine ⟨Nat.le_add_right _ _, ?_⟩
      rw [h.size_eq]
      exact Nat.add_lt_add_left (hh k hk) _
  · exact ⟨.node .document false [], fun h => absurd ⟨_, _, h⟩ hsome⟩

end Embodies

end Dom

/-! ### Building a script and a store -/

open Dom

/-- As long as a script has made the first calls of a final one, what is built in a store is its
tree. -/
def Script.embodied (final : Script) (start : Dom) : Correspondence Script Dom Nat NodeId where
  states s d := d.size = start.size + s.count ∧ (s.Begins final → Embodies start s d)
  nodes s _ x y := ∃ k < s.count, x = k + 1 ∧ y = start.size + k

namespace Script

variable {final s : Script} {start d : Dom}

theorem embodied_empty (final : Script) (hs : start.WellFormed) :
    (final.embodied start).states empty start :=
  ⟨rfl, fun _ => .empty hs⟩

/-- A node is created in both. -/
theorem embodied_create (h : (final.embodied start).states s d) {call : Nat → Call}
    {data : NodeData}
    (hnew : ∀ old, (call (s.count + 1)).dataAfter (s.count + 1) old = data)
    (hold : ∀ node ≠ s.count + 1, ∀ old, (call (s.count + 1)).dataAfter node old = old)
    (hedge : (call (s.count + 1)).edge? = none) :
    (final.embodied start).Later s d (s.create call).2 (d.create data).2 ∧
      (final.embodied start).nodes (s.create call).2 (d.create data).2 (s.create call).1
        (d.create data).1 := by
  obtain ⟨hsize, hbuilt⟩ := h
  refine ⟨⟨⟨?_, fun hb => ?_⟩, fun ⟨k, hk, hx⟩ => ⟨k, Nat.lt_succ_of_lt hk, hx⟩⟩,
    s.count, Nat.lt_succ_self _, rfl, hsize⟩
  · rw [size_create, hsize]
    rfl
  · have hb' : (s.record (call (s.count + 1))).Begins final := hb
    exact (hbuilt hb'.of_record).create hnew hold hedge

/-- An orderly script directs what is built in a store along with it. -/
def embodying (hf : final.Orderly) (start : Dom) : Pairing Script Dom where
  toCorrespondence := final.embodied start
  createElement tag h := embodied_create h (fun _ => if_pos rfl)
    (fun _ hne _ => if_neg fun he => hne he.symm) rfl
  createText text h := embodied_create h (fun _ => if_pos rfl)
    (fun _ hne _ => if_neg fun he => hne he.symm) rfl
  createFragment h := embodied_create h (fun _ => if_pos rfl)
    (fun _ hne _ => if_neg fun he => hne he.symm) rfl
  setAttribute key value h hn := by
    obtain ⟨hsize, hbuilt⟩ := h
    obtain ⟨k, -, rfl, rfl⟩ := hn
    exact ⟨⟨(size_setAttribute ..).trans hsize, fun hb =>
      (hbuilt (Begins.of_record hb)).setAttribute key value⟩, id⟩
  appendChild h hn hn' := by
    obtain ⟨hsize, hbuilt⟩ := h
    obtain ⟨p, hp, rfl, rfl⟩ := hn
    obtain ⟨x, hx, rfl, rfl⟩ := hn'
    exact ⟨⟨(size_append ..).trans hsize, fun hb =>
      (hbuilt (Begins.of_record hb)).append hp hx (hf.of_begins hb)⟩, id⟩

end Script

end RichDoc
