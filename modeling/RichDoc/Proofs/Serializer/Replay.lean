import RichDoc.Proofs.Build.Discipline
import RichDoc.Proofs.Serializer.Lockstep

/-!
# Replaying scripts

Work that was done on a script can be repeated in any kind of tree by making the recorded calls
there, each on the nodes that were made for the numbers it names. Nothing else comes of doing the
work there directly: the tree is the same, and so is the result or the failure. In a store the nodes
that are made are the ids that follow those it has, in order.
-/

namespace RichDoc

/-- A script that is being replayed: the node that was given, those that were made so far, and what
is built. -/
structure Replay (σ η : Type) where
  given : Option η
  made : List η
  tree : σ

namespace Replay

variable {σ η : Type}

/-- The node behind a number. Zero is the given node, and those that were made count from one on. -/
def node? (replay : Replay σ η) : Nat → Option η
  | 0 => replay.given
  | k + 1 => replay.made[k]?

/-- Go on after a node was made. -/
def add (replay : Replay σ η) (made : η × σ) : Replay σ η :=
  ⟨replay.given, replay.made ++ [made.1], made.2⟩

/-- A number keeps its node. -/
theorem node?_add {replay : Replay σ η} {k : Nat} {x : η} (h : replay.node? k = some x)
    (made : η × σ) : (replay.add made).node? k = some x := by
  cases k with
  | zero => exact h
  | succ k =>
    have hk : replay.made[k]? = some x := h
    rw [node?, add, List.getElem?_append_left (List.getElem?_eq_some_iff.mp hk).1, hk]

/-- The next number is the node that is made next. -/
theorem node?_made (replay : Replay σ η) (made : η × σ) :
    (replay.add made).node? (replay.made.length + 1) = some made.1 :=
  List.getElem?_concat_length

variable [TreeBuilder σ η]

/-- Make a recorded call. There is no way to make one on a number without a node. -/
def call (replay : Replay σ η) : Call → Option (Replay σ η)
  | .element _ tag => some (replay.add (TreeBuilder.createElement replay.tree tag))
  | .text _ text => some (replay.add (TreeBuilder.createText replay.tree text))
  | .fragment _ => some (replay.add (TreeBuilder.createFragment replay.tree))
  | .attribute id key value => do
    let node ← replay.node? id
    return { replay with tree := TreeBuilder.setAttribute replay.tree node key value }
  | .append parent child => do
    let node ← replay.node? parent
    let other ← replay.node? child
    return { replay with tree := TreeBuilder.appendChild replay.tree node other }

theorem call_attribute {replay : Replay σ η} {id : Nat} {x : η} (h : replay.node? id = some x)
    (key value : String) : replay.call (.attribute id key value) =
      some { replay with tree := TreeBuilder.setAttribute replay.tree x key value } := by
  rw [call, h]
  rfl

theorem call_append {replay : Replay σ η} {parent child : Nat} {x y : η}
    (h : replay.node? parent = some x) (h' : replay.node? child = some y) :
    replay.call (.append parent child) =
      some { replay with tree := TreeBuilder.appendChild replay.tree x y } := by
  rw [call, h, h']
  rfl

end Replay

/-- Replay a script into a tree, with the node that was given. -/
def Script.replay {σ η : Type} [TreeBuilder σ η] (script : Script) (given : Option η)
    (start : σ) : Option (Replay σ η) :=
  script.calls.toList.foldlM Replay.call ⟨given, [], start⟩

section

variable {σ η : Type} [TreeBuilder σ η] {given : Option η} {start : σ}

theorem Script.replay_record {script : Script} {replay next : Replay σ η}
    (h : script.replay given start = some replay) {call : Call}
    (hc : replay.call call = some next) : (script.record call).replay given start = some next := by
  rw [Script.replay, Script.toList_record, List.foldlM_append,
    show script.calls.toList.foldlM Replay.call ⟨given, [], start⟩ = some replay from h]
  show ((replay.call call).bind fun next => some next) = some next
  rw [hc]
  rfl

/-- A script is recorded while its replay is built. -/
def replayed (given : Option η) (start : σ) : Correspondence Script σ Nat η where
  states s t := ∃ replay, s.replay given start = some replay ∧ replay.tree = t ∧
    replay.made.length = s.count
  nodes s _ k x := ∃ replay, s.replay given start = some replay ∧ replay.node? k = some x

/-- Nodes correspond to the numbers that the replay has for them. -/
theorem replayed_nodes_iff {s : Script} {t : σ} {replay : Replay σ η} {k : Nat} {x : η}
    (h : s.replay given start = some replay) :
    (replayed given start).nodes s t k x ↔ replay.node? k = some x := by
  constructor
  · rintro ⟨other, hother, hk⟩
    obtain rfl := Option.some.inj (h.symm.trans hother)
    exact hk
  · exact fun hk => ⟨replay, h, hk⟩

/-- When one more call was replayed that left the numbers their nodes, so do the nodes that
correspond. -/
theorem replayed_later {s s' : Script} {t : σ} {replay next : Replay σ η}
    (h : s.replay given start = some replay) (h' : s'.replay given start = some next)
    (ht : next.tree = t) (hcount : next.made.length = s'.count)
    (hkeep : ∀ {k x}, replay.node? k = some x → next.node? k = some x) :
    (replayed given start).Later s replay.tree s' t :=
  ⟨⟨next, h', ht, hcount⟩, fun hk =>
    (replayed_nodes_iff h').mpr (hkeep ((replayed_nodes_iff h).mp hk))⟩

/-- A node is made in both. -/
theorem replayed_create {s : Script} {t : σ} (h : (replayed given start).states s t)
    {call : Nat → Call} {made : η × σ}
    (hc : ∀ replay : Replay σ η, replay.tree = t →
      replay.call (call (s.count + 1)) = some (replay.add made)) :
    (replayed given start).Later s t (s.create call).2 made.2 ∧
      (replayed given start).nodes (s.create call).2 made.2 (s.create call).1 made.1 := by
  obtain ⟨replay, hs, rfl, hcount⟩ := h
  have hnext : (s.create call).2.replay given start = some (replay.add made) :=
    Script.replay_record hs (hc replay rfl)
  refine ⟨replayed_later hs hnext rfl ?_ fun hk => Replay.node?_add hk made,
    (replayed_nodes_iff hnext).mpr ?_⟩
  · rw [Replay.add, List.length_append, hcount]
    rfl
  · show (replay.add made).node? (s.count + 1) = some made.1
    rw [← hcount]
    exact Replay.node?_made _ made

/-- A call on nodes that correspond is made in both. -/
theorem replayed_record {s : Script} {replay : Replay σ η} {t : σ} {call : Call}
    (h : s.replay given start = some replay) (hcount : replay.made.length = s.count)
    (hc : replay.call call = some { replay with tree := t }) :
    (replayed given start).Later s replay.tree (s.record call) t :=
  replayed_later h (Script.replay_record h hc) rfl hcount id

/-- Building a tree directly keeps up with the replay of the script. -/
def replaying (given : Option η) (start : σ) : Pairing Script σ where
  toCorrespondence := replayed given start
  createElement _ h := replayed_create h fun _ ht => by rw [Replay.call, ht]
  createText _ h := replayed_create h fun _ ht => by rw [Replay.call, ht]
  createFragment h := replayed_create h fun _ ht => by rw [Replay.call, ht]
  setAttribute key value h hn := by
    obtain ⟨replay, hs, rfl, hcount⟩ := h
    exact replayed_record hs hcount
      (Replay.call_attribute ((replayed_nodes_iff hs).mp hn) key value)
  appendChild h hn hn' := by
    obtain ⟨replay, hs, rfl, hcount⟩ := h
    exact replayed_record hs hcount (Replay.call_append ((replayed_nodes_iff hs).mp hn)
      ((replayed_nodes_iff hs).mp hn'))

/-! ### The outcome of a replay -/

/-- Guarded work on a tree, without what becomes of the guard. -/
def Guarding.on {σ α : Type} (work : Guarding σ α) (guard : Guard) (tree : σ) :
    Except Error α × σ :=
  ((work ⟨guard, tree⟩).1, (work ⟨guard, tree⟩).2.tree)

/-- Work on a tree ended as the replay of its script does: every recorded call could be made, and
the work ended in the same tree, and in the same failure or with a result that is the recorded one
on the nodes of the replay. -/
def Replays {α β : Type} (given : Option η) (start : σ)
    (same : (Nat → Option η) → α → β → Prop) (recorded : Except Error α × Script)
    (direct : Except Error β × σ) : Prop :=
  ∃ replay, recorded.2.replay given start = some replay ∧ replay.tree = direct.2 ∧
    Outcomes (same replay.node?) recorded.1 direct.1

/-- A number stands for a node. -/
def SameNode (node? : Nat → Option η) (k : Nat) (x : η) : Prop := node? k = some x

/-- The numbers of a rendered description stand for its nodes. -/
structure SameRendered (node? : Nat → Option η) (first : Rendered Nat) (second : Rendered η) :
    Prop where
  root : SameNode node? first.root second.root
  hole : Option.Rel (SameNode node?) first.hole second.hole

theorem sameRendered_of_replayed {s : Script} {t : σ} {replay : Replay σ η}
    {first : Rendered Nat} {second : Rendered η} (h : s.replay given start = some replay)
    (hr : (replayed given start).Rendering s t first second) :
    SameRendered replay.node? first second := by
  obtain ⟨root, hole⟩ := first
  obtain ⟨root', hole'⟩ := second
  refine ⟨(replayed_nodes_iff h).mp hr.root, ?_⟩
  have hhole : Option.Rel ((replayed given start).nodes s t) hole hole' := hr.hole
  cases hhole with
  | some hn => exact .some ((replayed_nodes_iff h).mp hn)
  | none => exact .none

/-- What corresponds to a recorded outcome is how the replay ends. -/
theorem Replays.of_states {α β : Type} {same : (Nat → Option η) → α → β → Prop} {R : α → β → Prop}
    {s : Script} {t : σ} {first : Except Error α} {second : Except Error β}
    (h : (replayed given start).states s t) (hout : Outcomes R first second)
    (hsame : ∀ {replay a b}, s.replay given start = some replay → R a b →
      same replay.node? a b) : Replays given start same (first, s) (second, t) := by
  obtain ⟨replay, hreplay, htree, -⟩ := h
  exact ⟨replay, hreplay, htree, hout.imp fun _ _ hr => hsame hreplay hr⟩

/-- Nothing has been recorded or built yet. -/
theorem replaying_start (given : Option η) (start : σ) {pool : Pool} {guard guard' : Guard}
    (hg : guard.Reachable pool) (hg' : guard'.Reachable pool) :
    ((replaying given start).guarded (.faithful pool)).states ⟨guard', .empty⟩ ⟨guard, start⟩ :=
  ⟨⟨⟨given, [], start⟩, rfl, rfl, rfl⟩, hg'.faithful, hg.faithful⟩

/-- Zero stands for the node that is given. -/
theorem replaying_given (given : Option η) (start : σ) :
    Option.Rel ((replaying given start).nodes .empty start) (given.map fun _ => 0) given := by
  cases given with
  | none => exact .none
  | some x => exact .some ⟨⟨some x, [], start⟩, rfl, rfl⟩

end

/-! ### Replaying into stores -/

/-- In a store every call that makes a node makes the next id, and the store grows by that cell. -/
theorem Replay.made_call {replay next : Replay Dom NodeId} {call : Call}
    (h : replay.call call = some next) :
    next.made = replay.made ++ (call.made?.map fun _ => replay.tree.size).toList ∧
      next.tree.size = replay.tree.size + call.made?.toList.length := by
  cases call with
  | element id tag | text id text | fragment id =>
    obtain rfl := Option.some.inj h
    exact ⟨rfl, Dom.size_create _ _⟩
  | «attribute» id key value =>
    obtain ⟨node, -, hnext⟩ := Option.bind_eq_some_iff.mp h
    obtain rfl := Option.some.inj hnext
    exact ⟨(List.append_nil _).symm, Dom.size_setAttribute _ _ _ _⟩
  | append parent child =>
    obtain ⟨node, -, hnext⟩ := Option.bind_eq_some_iff.mp h
    obtain ⟨other, -, hnext⟩ := Option.bind_eq_some_iff.mp hnext
    obtain rfl := Option.some.inj hnext
    exact ⟨(List.append_nil _).symm, Dom.size_append _ _ _⟩

/-- In a store the nodes that calls make are the new ids, in order. -/
theorem Replay.made_calls {start : Dom} {given : Option NodeId} (calls : List Call)
    {replay : Replay Dom NodeId} (h : calls.foldlM Replay.call ⟨given, [], start⟩ = some replay) :
    replay.made = List.range' start.size (madeBy calls).length ∧
      replay.tree.size = start.size + (madeBy calls).length := by
  induction calls using List.reverseRecOn generalizing replay with
  | nil =>
    obtain rfl := Option.some.inj h
    exact ⟨rfl, rfl⟩
  | append_singleton calls call ih =>
    rw [List.foldlM_append] at h
    obtain ⟨before, hbefore, h⟩ := Option.bind_eq_some_iff.mp h
    obtain ⟨next, hcall, hnext⟩ := Option.bind_eq_some_iff.mp h
    obtain rfl := Option.some.inj hnext
    obtain ⟨hmade, hsize⟩ := made_call hcall
    rw [hmade, hsize, madeBy_concat, (ih hbefore).1, (ih hbefore).2, List.length_append]
    refine ⟨?_, Nat.add_assoc _ _ _⟩
    cases call.made? with
    | none => exact List.append_nil _
    | some id => exact List.range'_1_concat.symm

variable {σ η : Type} [TreeBuilder σ η]

/-- Rendering a template, a node or a fragment into a tree ends as the replay of the script that the
same work records, whatever the tree held before and whatever the guards were asked before about
maps that were made. Both fail where one does, and what was built until
then is the same too, with the cells that a store grafts among it. In a store the numbers of the
script stand for the new ids, in order. -/
theorem serializer_replays {pool : Pool} {guard guard' : Guard} (hg : guard.Reachable pool)
    (hg' : guard'.Reachable pool) (start : σ) :
    (∀ spec : Spec, Replays none start SameRendered
      ((spec.render : Building Script (Rendered Nat)) .empty) (spec.render start)) ∧
    (∀ (spec : Spec) (sources : List Attrs), (∀ attrs ∈ sources, pool.has attrs) →
      Replays none start SameRendered
      ((spec.renderGuarded sources : Guarding Script (Rendered Nat)).on guard' .empty)
      ((spec.renderGuarded sources).on guard start)) ∧
    (∀ (table : TemplateTable) (policy : MarkPolicy) (node : Node), node.Maps pool.has →
      Replays none start SameNode
        ((serializeNode table policy node : Guarding Script Nat).on guard' .empty)
        ((serializeNode table policy node).on guard start)) ∧
    (∀ (table : TemplateTable) (policy : MarkPolicy) (fragment : Fragment) (target : Option η),
      (∀ node ∈ fragment, node.Maps pool.has) → Replays target start SameNode
        ((serializeFragment table policy fragment (target.map fun _ => 0) :
          Guarding Script Nat).on guard' .empty)
        ((serializeFragment table policy fragment target).on guard start)) ∧
    ∀ (script : Script) (given : Option NodeId) (dom : Dom) (replay : Replay Dom NodeId),
      script.replay given dom = some replay →
        replay.made = List.range' dom.size (madeBy script.calls.toList).length := by
  have hstart := replaying_start (σ := σ) none start hg hg'
  refine ⟨fun spec => ?_, fun spec sources hsources => ?_, fun table policy node hnode => ?_,
    fun table policy fragment target hfragment => ?_, fun script given dom replay h => ?_⟩
  · obtain ⟨hlater, hout⟩ := (replaying none start).renderSpec [] spec hstart.1
    exact .of_states hlater.states hout sameRendered_of_replayed
  · obtain ⟨hlater, hout⟩ := (replaying none start).renderGuarded hstart spec hsources
    exact .of_states hlater.states.1 hout fun h hr =>
      sameRendered_of_replayed (t := start) h ⟨hr.root, hr.hole⟩
  · obtain ⟨hlater, hout⟩ := (replaying none start).serializeNode table policy hnode hstart
    exact .of_states hlater.states.1 hout fun h hn =>
      (replayed_nodes_iff (t := start) h).mp hn
  · obtain ⟨hlater, hout⟩ := (replaying target start).serializeFragment table policy hfragment
      (replaying_start target start hg hg') (replaying_given target start)
    exact .of_states hlater.states.1 hout fun h hn =>
      (replayed_nodes_iff (t := start) h).mp hn
  · exact (Replay.made_calls script.calls.toList h).1

set_option maxRecDepth 10000 in
/-- A template fails after a text was appended to an element that was there before. The calls until
then are replayed with that element as the given node, and make the ids from two on. -/
theorem serializer_replays_sample :
    let dom := (Dom.empty.create (.element (.html "p") [])).2
    let fragment := [sampleText "a" [], sampleText "b" ["broken"]]
    let recorded := (serializeFragment sampleTable .strict fragment (some 0) :
      Guarding Script Nat).on .empty .empty
    let direct := (serializeFragment sampleTable .strict fragment (some 1) :
      Guarding Dom NodeId).on .empty dom
    Guard.Reachable .blank .empty ∧ direct.1 = .error (.malformedTemplate (.badTag "not a tag")) ∧
      ∃ replay, recorded.2.replay (some 1) dom = some replay ∧ replay.tree = direct.2 ∧
        recorded.1 = direct.1 ∧ replay.made = [2, 3, 4] := by
  intro dom fragment recorded direct
  have herror : direct.1 = .error (.malformedTemplate (.badTag "not a tag")) := rfl
  have hmaps : ∀ node ∈ fragment, node.Maps Pool.blank.has :=
    List.forall_mem_cons.mpr ⟨maps_sampleText _ _, List.forall_mem_singleton.mpr
      (maps_sampleText _ _)⟩
  obtain ⟨-, -, -, hfragment, hmade⟩ := serializer_replays (σ := Dom) .empty .empty dom
  obtain ⟨replay, hreplay, htree, hout⟩ := hfragment sampleTable .strict fragment (some 1) hmaps
  have hsame : recorded.1 = direct.1 := by
    rw [herror] at hout ⊢
    cases hout
    rfl
  refine ⟨.empty, herror, replay, hreplay, htree, hsame, ?_⟩
  exact hmade recorded.2 (some 1) dom replay hreplay

end RichDoc
