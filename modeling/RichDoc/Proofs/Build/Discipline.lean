import RichDoc.Proofs.Build.Lawful
import RichDoc.Proofs.Build.Simulation
import RichDoc.Proofs.Build.Trace
import Mathlib.Data.List.Forall2

/-!
# The discipline of building calls

What a kind of tree may rely on is said here of a list of building calls, whose nodes are numbered
in the order of their creation, with zero for a node that was given. Every kind of tree gets the
calls of such a list, on nodes of its own.
-/

namespace RichDoc

/-- The number of the node that a call creates. -/
def Call.made? : Call → Option Nat
  | .element id _ => some id
  | .text id _ => some id
  | .fragment id => some id
  | .attribute _ _ _ => none
  | .append _ _ => none

/-- The nodes that calls create, in order. -/
def madeBy (calls : List Call) : List Nat := calls.filterMap Call.made?

theorem madeBy_concat (calls : List Call) (call : Call) :
    madeBy (calls ++ [call]) = madeBy calls ++ call.made?.toList := by
  rw [madeBy, List.filterMap_append, List.filterMap_cons, List.filterMap_nil]
  cases call.made? <;> rfl

/-- The parents and the children of append calls, in order. -/
def edgesBy (calls : List Call) : List (Nat × Nat) := calls.filterMap Call.edge?

/-- What may be called after other calls. A new node gets the next number. Attributes are set on
elements that were created. A node that was created and has not been appended can be appended to
another one that was created, or to one that was given, unless that is at or below it. -/
def Call.Allowed (given : Prop) (before : List Call) : Call → Prop
  | .element id _ => id = (madeBy before).length + 1
  | .text id _ => id = (madeBy before).length + 1
  | .fragment id => id = (madeBy before).length + 1
  | .attribute id _ _ => ∃ tag, .element id tag ∈ before
  | .append parent child =>
    (parent ∈ madeBy before ∨ given ∧ parent = 0) ∧ child ∈ madeBy before ∧
      (∀ other, .append other child ∉ before) ∧ ¬Reaches (edgesBy before) child parent

/-- Calls each of which is allowed after those before it. -/
inductive Disciplined (given : Prop) : List Call → Prop where
  | nil : Disciplined given []
  | next {calls : List Call} {call : Call} : Disciplined given calls → call.Allowed given calls →
      Disciplined given (calls ++ [call])

/-- Calls build one tree below a root: every other node that they create is appended once, and all
are at or below the root. -/
structure Spans (calls : List Call) (root : Nat) : Prop where
  once : ((edgesBy calls).map Prod.snd).Perm ((madeBy calls).erase root)
  reaches : ∀ node ∈ madeBy calls, Reaches (edgesBy calls) root node

namespace Script

variable {given : Prop} {s t : Script}

/-- What a script knows of its calls: its nodes have the first numbers, and each of them is appended
at most once. -/
structure Numbered (script : Script) : Prop where
  made : madeBy script.calls.toList = List.range' 1 script.count
  nodup : (script.edges.map Prod.snd).Nodup
  closed : script.Closed
  pos : ∀ e ∈ script.edges, 0 < e.2

theorem Numbered.mem_made (h : s.Numbered) {node : Nat} :
    node ∈ madeBy s.calls.toList ↔ 0 < node ∧ node ≤ s.count := by
  rw [h.made, List.mem_range'_1]
  omega

theorem Numbered.length_made (h : s.Numbered) : (madeBy s.calls.toList).length = s.count := by
  rw [h.made, List.length_range']

theorem numbered_empty : Numbered .empty :=
  ⟨rfl, List.nodup_nil, closed_empty, List.forall_mem_nil _⟩

/-- The next node gets the next number. -/
theorem Numbered.create (h : s.Numbered) {call : Nat → Call}
    (hm : (call (s.count + 1)).made? = some (s.count + 1))
    (he : (call (s.count + 1)).edge? = none) : (s.create call).2.Numbered := by
  have hedges : (s.create call).2.edges = s.edges := by
    rw [show (s.create call).2.edges = s.edges ++ (call (s.count + 1)).edge?.toList from
      edges_record .., he, Option.toList_none, List.append_nil]
  have hcalls : (s.create call).2.calls.toList = s.calls.toList ++ [call (s.count + 1)] :=
    Array.toList_push
  refine ⟨?_, hedges ▸ h.nodup, h.closed.of_edges_eq (Nat.le_succ _) hedges, hedges ▸ h.pos⟩
  rw [hcalls, madeBy_concat, hm, h.made, Nat.add_comm s.count 1]
  exact List.range'_1_concat.symm

theorem toList_record (s : Script) (call : Call) :
    (s.record call).calls.toList = s.calls.toList ++ [call] := Array.toList_push

/-- A call that keeps to the laws is allowed after the calls of the script. -/
theorem Numbered.step (h : s.Numbered) (hs : Step given s t) :
    t.Numbered ∧ ∃ call, t.calls.toList = s.calls.toList ++ [call] ∧
      call.Allowed given s.calls.toList := by
  have hnext : s.count + 1 = (madeBy s.calls.toList).length + 1 := by rw [h.length_made]
  cases hs with
  | element tag => exact ⟨h.create rfl rfl, _, Array.toList_push, hnext⟩
  | text text => exact ⟨h.create rfl rfl, _, Array.toList_push, hnext⟩
  | fragment => exact ⟨h.create rfl rfl, _, Array.toList_push, hnext⟩
  | @attr id tag key value created =>
    have hedges := edges_setAttribute s id key value
    have hcalls : (TreeBuilder.setAttribute s id key value).calls.toList =
        s.calls.toList ++ [.attribute id key value] := toList_record ..
    refine ⟨⟨?_, hedges ▸ h.nodup, h.closed.of_edges_eq (Nat.le_refl _) hedges, hedges ▸ h.pos⟩,
      _, hcalls, tag, created⟩
    rw [hcalls, madeBy_concat]
    exact (List.append_nil _).trans h.made
  | @append parent child place pos created free apart =>
    have hedges := edges_appendChild s parent child
    have hcalls : (TreeBuilder.appendChild s parent child).calls.toList =
        s.calls.toList ++ [.append parent child] := toList_record ..
    refine ⟨⟨?_, ?_, ?_, ?_⟩, _, hcalls, ?_, h.mem_made.mpr ⟨pos, created⟩, ?_, apart⟩
    · rw [hcalls, madeBy_concat]
      exact (List.append_nil _).trans h.made
    · have hfresh : child ∉ s.edges.map Prod.snd := by
        intro hmem
        obtain ⟨⟨p, c⟩, hedge, rfl⟩ := List.mem_map.mp hmem
        exact free p hedge
      rw [hedges, List.map_append]
      refine List.nodup_append.mpr ⟨h.nodup, List.pairwise_singleton _ _, fun x hx y hy => ?_⟩
      rintro rfl
      have hlast : x = child := List.mem_singleton.mp hy
      exact hfresh (hlast ▸ hx)
    · intro e hmem
      rw [hedges] at hmem
      rcases List.mem_append.mp hmem with hmem | hmem
      · exact h.closed e hmem
      · rw [List.mem_singleton.mp hmem]
        exact ⟨place.2, created⟩
    · intro e hmem
      rw [hedges] at hmem
      rcases List.mem_append.mp hmem with hmem | hmem
      · exact h.pos e hmem
      · rw [List.mem_singleton.mp hmem]
        exact pos
    · by_cases hzero : parent = 0
      · exact Or.inr ⟨place.1 hzero, hzero⟩
      · exact Or.inl (h.mem_made.mpr ⟨Nat.pos_of_ne_zero hzero, place.2⟩)
    · exact fun other hmem => free other (List.mem_filterMap.mpr ⟨_, hmem, rfl⟩)

/-- The calls of lawful building are disciplined. -/
theorem Lawful.disciplined (h : Lawful given .empty t) :
    t.Numbered ∧ Disciplined given t.calls.toList := by
  induction h with
  | refl => exact ⟨numbered_empty, .nil⟩
  | tail _ hs ih =>
    obtain ⟨hnumbered, call, hcalls, hallowed⟩ := ih.1.step hs
    refine ⟨hnumbered, ?_⟩
    rw [hcalls]
    exact ih.2.next hallowed

/-- What hangs together below a node that is not appended is one tree. -/
theorem Numbered.spans (h : t.Numbered) {root : Nat} (hfree : ∀ p, (p, root) ∉ t.edges)
    (hc : Covers .empty t root) : Spans t.calls.toList root := by
  have hreach : ∀ node ∈ madeBy t.calls.toList, Reaches t.edges root node := fun node hmem =>
    hc node (h.mem_made.mp hmem).1 (h.mem_made.mp hmem).2
  have hmade : (madeBy t.calls.toList).Nodup := by
    rw [h.made]
    exact List.nodup_range'
  refine ⟨(List.perm_ext_iff_of_nodup h.nodup (hmade.erase root)).mpr fun node => ?_, hreach⟩
  rw [hmade.mem_erase_iff, List.mem_map]
  constructor
  · rintro ⟨e, hmem, rfl⟩
    exact ⟨fun he => hfree e.1 (he ▸ hmem), h.mem_made.mpr ⟨h.pos e hmem, (h.closed e hmem).2⟩⟩
  · rintro ⟨hne, hmem⟩
    rcases Relation.ReflTransGen.cases_tail (hreach node hmem) with heq | ⟨p, -, hedge⟩
    · exact absurd heq hne
    · exact ⟨_, hedge, rfl⟩

end Script

/-! ### The calls of every kind of tree -/

variable {σ η : Type}

/-- The node that a call created. -/
def BuildCall.made? : BuildCall η → Option η
  | .element _ made => some made
  | .text _ made => some made
  | .fragment made => some made
  | .attribute _ _ _ => none
  | .append _ _ => none

/-- The node behind a number: the given one, or the one that was created in this place. -/
def nodeAt (given : Option η) (calls : List (BuildCall η)) : Nat → Option η
  | 0 => given
  | k + 1 => (calls.filterMap BuildCall.made?)[k]?

/-- A call on numbers is a call on nodes. -/
inductive Call.Names (node : Nat → Option η) : Call → BuildCall η → Prop where
  | element {id tag made} : node id = some made → Names node (.element id tag) (.element tag made)
  | text {id text made} : node id = some made → Names node (.text id text) (.text text made)
  | fragment {id made} : node id = some made → Names node (.fragment id) (.fragment made)
  | attr {id x key value} : node id = some x →
      Names node (.attribute id key value) (.attribute x key value)
  | append {parent child x y} : node parent = some x → node child = some y →
      Names node (.append parent child) (.append x y)

/-- Calls on numbers are these calls on nodes. -/
def Tracks (given : Option η) (script : List Call) (calls : List (BuildCall η)) : Prop :=
  List.Forall₂ (Call.Names (nodeAt given calls)) script calls

theorem Call.Names.mono {node node' : Nat → Option η} (h : ∀ k x, node k = some x →
    node' k = some x) {call : Call} {other : BuildCall η} (hn : call.Names node other) :
    call.Names node' other := by
  cases hn with
  | element hx => exact .element (h _ _ hx)
  | text hx => exact .text (h _ _ hx)
  | fragment hx => exact .fragment (h _ _ hx)
  | attr hx => exact .attr (h _ _ hx)
  | append hx hy => exact .append (h _ _ hx) (h _ _ hy)

/-- A number keeps its node. -/
theorem nodeAt_append {given : Option η} {calls : List (BuildCall η)} (more : List (BuildCall η))
    {k : Nat} {x : η} (h : nodeAt given calls k = some x) :
    nodeAt given (calls ++ more) k = some x := by
  cases k with
  | zero => exact h
  | succ k =>
    rw [nodeAt] at h ⊢
    rw [List.filterMap_append]
    rw [List.getElem?_append_left (List.getElem?_eq_some_iff.mp h).1, h]

/-- The next number is the node that is created next. -/
theorem nodeAt_made (given : Option η) {calls : List (BuildCall η)} {call : BuildCall η} {x : η}
    (h : call.made? = some x) {k : Nat} (hk : k = (calls.filterMap BuildCall.made?).length) :
    nodeAt given (calls ++ [call]) (k + 1) = some x := by
  rw [nodeAt, List.filterMap_append, List.filterMap_cons_some h, List.filterMap_nil, hk,
    List.getElem?_concat_length]

variable [TreeBuilder σ η]

/-- A script goes along with recorded calls: it numbers the nodes that these create. -/
def tracking (σ : Type) {η : Type} [TreeBuilder σ η] (given : Option η) :
    Correspondence Script (Traced σ η) Nat η where
  states s t := s.count = (t.calls.filterMap BuildCall.made?).length ∧
    Tracks given s.calls.toList t.calls
  nodes _ t k x := nodeAt given t.calls k = some x

section

variable {given : Option η} {s : Script} {t : Traced σ η}

/-- A call and its numbers are recorded. -/
theorem tracking_call (h : Tracks given s.calls.toList t.calls) {script : Script}
    {traced : Traced σ η} {call : Call} {other : BuildCall η}
    (hs : script.calls.toList = s.calls.toList ++ [call]) (ht : traced.calls = t.calls ++ [other])
    (hc : script.count = (traced.calls.filterMap BuildCall.made?).length)
    (hn : call.Names (nodeAt given traced.calls) other) :
    (tracking σ given).Later s t script traced := by
  have hkeep : ∀ k x, nodeAt given t.calls k = some x → nodeAt given traced.calls k = some x := by
    intro k x hk
    rw [ht]
    exact nodeAt_append _ hk
  refine ⟨⟨hc, ?_⟩, hkeep _ _⟩
  rw [Tracks, hs, ht]
  rw [ht] at hn hkeep
  exact List.rel_append (h.imp fun _ _ hold => hold.mono hkeep) (.cons hn .nil)

/-- A node is created, and gets the next number. -/
theorem tracking_create (h : (tracking σ given).states s t) {call : Nat → Call}
    {traced : Traced σ η} {other : BuildCall η} {made : η}
    (ht : traced.calls = t.calls ++ [other]) (hm : other.made? = some made)
    (hn : ∀ node : Nat → Option η, node (s.count + 1) = some made →
      (call (s.count + 1)).Names node other) :
    (tracking σ given).Later s t (s.create call).2 traced ∧
      (tracking σ given).nodes (s.create call).2 traced (s.create call).1 made := by
  have hnode : nodeAt given traced.calls (s.count + 1) = some made := by
    rw [ht]
    exact nodeAt_made given hm h.1
  refine ⟨tracking_call h.2 Array.toList_push ht ?_ (hn _ hnode), hnode⟩
  rw [ht, List.filterMap_append, List.length_append, ← h.1, List.filterMap_cons_some hm]
  rfl

/-- A call on nodes that are there goes to these nodes. -/
theorem tracking_record (h : (tracking σ given).states s t) {call : Call} {traced : Traced σ η}
    {other : BuildCall η} (ht : traced.calls = t.calls ++ [other]) (hm : other.made? = none)
    (hn : call.Names (nodeAt given t.calls) other) :
    (tracking σ given).Later s t (s.record call) traced := by
  refine tracking_call h.2 Array.toList_push ht ?_ ?_
  · rw [ht, List.filterMap_append, List.filterMap_cons_none hm, List.filterMap_nil,
      List.append_nil]
    exact h.1
  · rw [ht]
    exact hn.mono fun _ _ => nodeAt_append _

end

/-- Every kind of tree gets the calls of a script. -/
def tracks (σ : Type) {η : Type} [TreeBuilder σ η] (given : Option η) :
    Pairing Script (Traced σ η) where
  toCorrespondence := tracking σ given
  createElement _ h := tracking_create h rfl rfl fun _ hn => .element hn
  createText _ h := tracking_create h rfl rfl fun _ hn => .text hn
  createFragment h := tracking_create h rfl rfl fun _ hn => .fragment hn
  setAttribute _ _ h hn := tracking_record h rfl rfl (.attr hn)
  appendChild h hn hn' := tracking_record h rfl rfl (.append hn hn')

/-- Nothing has been called yet. -/
theorem tracking_start (given : Option η) (tree : σ) :
    (tracking σ given).states .empty ⟨tree, []⟩ :=
  ⟨rfl, .nil⟩

/-- The calls on a kind of tree are those of a disciplined script. If a rendering is finished, they
build one tree below its root, which is the given node if there is one, and its hole is in that
tree. -/
def BuildsTree (given : Option η) (calls : List (BuildCall η)) (finished : Rendered η → Prop) :
    Prop :=
  ∃ script, Tracks given script calls ∧ Disciplined (given.isSome = true) script ∧
    ∀ rendered, finished rendered → ∃ root, nodeAt given calls root = some rendered.root ∧
      (given.isSome = true → root = 0) ∧ Spans script root ∧
      ∀ hole ∈ rendered.hole, ∃ below, nodeAt given calls below = some hole ∧
        Reaches (edgesBy script) root below

/-- A script that goes along with calls shows what they build. -/
theorem BuildsTree.of_tracking {given : Option η} {script : Script} {traced : Traced σ η}
    {finished : Rendered η → Prop} (h : (tracking σ given).states script traced)
    (hl : Script.Lawful (given.isSome = true) .empty script)
    (hf : ∀ rendered, finished rendered → ∃ root, nodeAt given traced.calls root =
      some rendered.root ∧ (given.isSome = true → root = 0) ∧ (∀ p, (p, root) ∉ script.edges) ∧
      Script.Covers .empty script root ∧
      ∀ hole ∈ rendered.hole, ∃ below, nodeAt given traced.calls below = some hole ∧
        Reaches script.edges root below) :
    BuildsTree given traced.calls finished := by
  obtain ⟨hnumbered, hdisciplined⟩ := hl.disciplined
  refine ⟨script.calls.toList, h.2, hdisciplined, fun rendered hr => ?_⟩
  obtain ⟨root, hroot, hgiven, hfree, hcovers, hhole⟩ := hf rendered hr
  exact ⟨root, hroot, hgiven, hnumbered.spans hfree hcovers, hhole⟩

/-- Rendering a description builds a tree. -/
theorem renderSpec_buildsTree (blocked : List Suspicious) (spec : Spec) (tree : σ) :
    let run := (renderSpec blocked spec : Building (Traced σ η) (Rendered η)) ⟨tree, []⟩
    BuildsTree none run.2.calls fun rendered => run.1 = .ok rendered := by
  intro run
  have hrun := (tracks σ none).renderSpec blocked spec (tracking_start (η := η) none tree)
  obtain ⟨⟨hg, hok⟩, hbuilds⟩ := (Script.renderRules_builds
    ((none : Option η).isSome = true)).renderSpec blocked spec .empty
  obtain ⟨hlawful, hcovers⟩ := hbuilds Script.closed_empty
  refine .of_tracking hrun.1.states hlawful fun rendered hr => ?_
  obtain ⟨made, script, hmade, hlater, hroot, hhole⟩ := hrun.ok_left (Prod.ext hr rfl)
  rw [hmade] at hg hok hcovers ⊢
  obtain ⟨-, hfirst, hbelow⟩ := hok made rfl
  refine ⟨made.root, hroot, nofun, ?_, hcovers made rfl, fun hole hh => ?_⟩
  · rw [hfirst]
    exact hg.first_free Script.closed_empty
  · rw [hh] at hhole
    cases hk : made.hole with
    | none =>
      rw [hk] at hhole
      cases hhole
    | some k =>
      rw [hk] at hhole
      cases hhole with
      | some hn => exact ⟨k, hn, (hbelow k hk).1⟩

end RichDoc
