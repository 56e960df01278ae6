import RichDoc.Proofs.Serializer.Lockstep
import RichDoc.Proofs.Serializer.Total
import RichDoc.Proofs.Template.Holding

/-!
# The requests of a serializer

Serializing asks the guard about the attribute maps of the document and nothing else. So a
serializer that is used again leaves the guard as a series of requests would, and after every run of
requests, with maps that come and go, it builds and returns what a new one does.
-/

namespace RichDoc

/-- The scans of two lists of maps are requested one after the other. -/
theorem Guard.collect_append (guard : Guard) (sources others : List Attrs) :
    (guard.collect (sources ++ others)).2 = ((guard.collect sources).2.collect others).2 := by
  induction sources generalizing guard with
  | nil => rfl
  | cons attrs rest ih => exact ih (guard.suspicious attrs).2

/-- All that some work asks of the guard are scans of maps with a property. -/
def Guarding.Asks {σ α : Type} (p : Attrs → Prop) (work : Guarding σ α) : Prop :=
  ∀ state, ∃ sources : List Attrs, (∀ attrs ∈ sources, p attrs) ∧
    (work state).2.guard = (state.guard.collect sources).2

namespace Guarding.Asks

variable {σ η α β : Type} {p : Attrs → Prop}

/-- Work that leaves the guard alone asks for nothing. -/
theorem of_guard {work : Guarding σ α} (h : ∀ state, (work state).2.guard = state.guard) :
    work.Asks p := fun state => ⟨[], List.forall_mem_nil _, h state⟩

/-- A value is given back without a question. -/
theorem pure (a : α) : Asks p (pure a : Guarding σ α) := of_guard fun _ => rfl

/-- A failure asks nothing. -/
theorem throw (error : Error) : Asks p (throw error : Guarding σ α) := of_guard fun _ => rfl

/-- What two pieces of work ask is asked one after the other; a failure ends the questions. -/
theorem bind {work : Guarding σ α} {next : α → Guarding σ β} (hw : work.Asks p)
    (hn : ∀ a, (next a).Asks p) : Asks p (work >>= next) := by
  intro state
  obtain ⟨sources, hsources, hguard⟩ := hw state
  rcases hrun : work state with ⟨error | a, t⟩
  · rw [hrun] at hguard
    rw [Building.bind_apply_error hrun]
    exact ⟨sources, hsources, hguard⟩
  · obtain ⟨others, hothers, hafter⟩ := hn a t
    rw [hrun] at hguard
    rw [Building.bind_apply_ok hrun]
    refine ⟨sources ++ others, List.forall_mem_append.mpr ⟨hsources, hothers⟩, ?_⟩
    rw [hafter, Guard.collect_append, ← hguard]

/-- A failure that is caught does not take back what was asked. -/
theorem attempt {work : Guarding σ α} (h : work.Asks p) : (attempt work).Asks p := h

variable [TreeBuilder σ η]

/-- Appending asks nothing. -/
theorem appendTo (parent child : η) : (appendTo parent child : Guarding σ Unit).Asks p :=
  of_guard fun _ => rfl

/-- Rendering with a guard asks about the maps whose values are forbidden. -/
theorem renderGuarded (spec : Spec) {sources : List Attrs} (h : ∀ attrs ∈ sources, p attrs) :
    (spec.renderGuarded sources : Guarding σ (Rendered η)).Asks p :=
  fun _ => ⟨sources, h, rfl⟩

/-- A mark asks about its own map and that of its node. -/
theorem renderMark (table : TemplateTable) {mark : Mark} {node : Node} (hm : p mark.attrs)
    (hn : p node.attrs) :
    (renderMark table mark node : Guarding σ (Option (Rendered η))).Asks p := by
  unfold RichDoc.renderMark
  cases table.mark? mark.typeName with
  | none => exact .pure none
  | some template =>
    refine (renderGuarded _ ?_).bind fun wrapper => .pure (some wrapper)
    exact List.forall_mem_cons.mpr ⟨hm, List.forall_mem_singleton.mpr hn⟩

/-- Opening marks asks about them and about their node. -/
theorem openMarks (table : TemplateTable) (policy : MarkPolicy) {node : Node} (hn : p node.attrs)
    (marks : List Mark) (hm : ∀ mark ∈ marks, p mark.attrs) (opened : OpenMarks η) :
    (openMarks table policy node marks opened : Guarding σ (OpenMarks η)).Asks p := by
  induction marks generalizing opened with
  | nil => exact .pure opened
  | cons mark rest ih =>
    have hrest : ∀ mark ∈ rest, p mark.attrs := fun other hmem =>
      hm other (List.mem_cons_of_mem _ hmem)
    rw [RichDoc.openMarks]
    refine (renderMark table (hm mark List.mem_cons_self) hn).attempt.bind fun result => ?_
    cases result with
    | error error =>
      dsimp only
      split
      · exact .throw error
      · exact ih hrest opened
    | ok wrapper =>
      cases wrapper with
      | none => exact ih hrest opened
      | some wrapper => exact (appendTo _ _).bind fun _ => ih hrest _

mutual

/-- A node asks about the maps at and below it. -/
theorem renderNode (table : TemplateTable) (policy : MarkPolicy) : (node : Node) →
    node.Maps p → (renderNode table policy node : Guarding σ η).Asks p
  | ⟨type, attrs, content, marks, text⟩, h => by
    rw [RichDoc.renderNode]
    cases table.node? type.name with
    | none => exact .throw _
    | some template =>
      refine (renderGuarded _ (List.forall_mem_singleton.mpr h.attrs)).bind fun rendered => ?_
      obtain ⟨root, hole⟩ := rendered
      cases hole with
      | none => exact .pure root
      | some hole =>
        dsimp only
        split
        · exact .throw _
        · exact (serializeNodes table policy content (fun _ hc => h.content hc) _).bind
            fun _ => .pure root

/-- A list of nodes asks about the maps in it. -/
theorem serializeNodes (table : TemplateTable) (policy : MarkPolicy) : (nodes : List Node) →
    (∀ node ∈ nodes, node.Maps p) → (opened : OpenMarks η) →
    (serializeNodes table policy opened nodes : Guarding σ Unit).Asks p
  | [], _, opened => by
    rw [RichDoc.serializeNodes]
    exact .pure ()
  | node :: rest, h, opened => by
    have hnode : node.Maps p := h node List.mem_cons_self
    rw [RichDoc.serializeNodes]
    refine (openMarks table policy hnode.attrs _ (fun mark hm => ?_) _).bind fun opened => ?_
    · exact hnode.marks (mem_of_mem_agreeing table hm)
    · refine (renderNode table policy node hnode).bind fun inner => ?_
      refine (appendTo _ _).bind fun _ => ?_
      exact serializeNodes table policy rest (fun other hmem =>
        h other (List.mem_cons_of_mem _ hmem)) opened

end

/-- A fragment asks about the maps in it. -/
theorem serializeFragment (table : TemplateTable) (policy : MarkPolicy) {fragment : Fragment}
    (h : ∀ node ∈ fragment, node.Maps p) (target : Option η) :
    (serializeFragment table policy fragment target : Guarding σ η).Asks p := by
  rw [serializeFragment_eq]
  refine bind ?_ fun root => ?_
  · cases target with
    | none => exact of_guard fun _ => rfl
    | some root => exact .pure root
  · exact (serializeNodes table policy fragment h _).bind fun _ => .pure root

/-- Wrapping a node in all its marks asks about them and about the node. -/
theorem wrapMarks (table : TemplateTable) {node : Node} (hn : p node.attrs) (marks : List Mark)
    (hm : ∀ mark ∈ marks, p mark.attrs) (inner : η) :
    (wrapMarks table node marks inner : Guarding σ η).Asks p := by
  induction marks with
  | nil => exact .pure inner
  | cons mark rest ih =>
    rw [RichDoc.wrapMarks]
    refine (ih fun other hmem => hm other (List.mem_cons_of_mem _ hmem)).bind fun wrapped => ?_
    refine (renderMark table (hm mark List.mem_cons_self) hn).bind fun wrapper => ?_
    cases wrapper with
    | none => exact .pure wrapped
    | some wrapper => exact (appendTo _ _).bind fun _ => .pure wrapper.root

/-- A single node asks about the maps at and below it. -/
theorem serializeNode (table : TemplateTable) (policy : MarkPolicy) {node : Node}
    (h : node.Maps p) : (serializeNode table policy node : Guarding σ η).Asks p := by
  unfold RichDoc.serializeNode
  refine (renderNode table policy node h).bind fun inner => ?_
  exact wrapMarks table h.attrs node.marks (fun _ hm => h.marks hm) inner

end Guarding.Asks

/-! ### Serializers that are used again -/

section

variable {σ η α : Type} {s : Holding} {table : TemplateTable} {tree : σ}

/-- Work on a tree builds and returns the same with the guard at hand as with a new one, and what it
does to the guard is a request about maps that are held. -/
structure RunsAsNew (s : Holding) (table : TemplateTable) (work : Guarding σ α) (tree : σ) :
    Prop where
  result : ((⟨table, s.guard⟩ : Serializer).run work tree).1 =
    ((Serializer.new table).run work tree).1
  built : ((⟨table, s.guard⟩ : Serializer).run work tree).2.1 =
    ((Serializer.new table).run work tree).2.1
  request : s.Request
    { s with guard := ((⟨table, s.guard⟩ : Serializer).run work tree).2.2.guard }

/-- Outcomes that differ in nothing are the same. -/
theorem Outcomes.eq {first second : Except Error α} (h : Outcomes Eq first second) :
    first = second := by
  cases h with
  | ok heq => rw [heq]
  | error error => rfl

/-- The same is built on both sides. -/
def Pairing.twins [TreeBuilder σ η] (tree : σ) : Pairing σ σ :=
  .keeping (R := fun _ _ => True) ⟨fun _ => trivial, fun _ _ => trivial, fun _ _ => trivial,
    fun _ _ => trivial, fun _ => trivial, fun _ _ _ _ => trivial, fun _ _ _ => trivial⟩ tree

/-- Work that runs alongside itself under any two guards that keep nothing wrong, and that asks
about held maps only. -/
theorem RunsAsNew.of_alongside [TreeBuilder σ η] {work : Guarding σ α}
    {R : Guarded σ → Guarded σ → α → α → Prop} (hR : ∀ t t' a b, R t t' a b → a = b)
    (hs : s.Valid) (hasks : work.Asks (· ∈ s.held))
    (hw : ((Pairing.twins tree).guarded (.faithful hs.pool)).states ⟨s.guard, tree⟩
        ⟨.empty, tree⟩ →
      ((Pairing.twins tree).guarded (.faithful hs.pool)).Alongside R work work ⟨s.guard, tree⟩
        ⟨.empty, tree⟩) : RunsAsNew s table work tree := by
  obtain ⟨hlater, hout⟩ := hw ⟨⟨rfl, trivial⟩, hs.faithful, List.forall_mem_nil _⟩
  refine ⟨?_, hlater.states.1.1, ?_⟩
  · exact (hout.imp fun a b hr => hR _ _ a b hr).eq
  · obtain ⟨sources, hsources, hguard⟩ := hasks ⟨s.guard, tree⟩
    show s.Request { s with guard := (work ⟨s.guard, tree⟩).2.guard }
    rw [hguard]
    exact .collect hsources

end

/-- After every run of requests to a guard, with maps that are made, handed on and let go between
them, the guard answers requests about held maps with what a new scan finds. A serializer with it
builds and returns what a new one does, in any kind of tree, so it also makes the same calls; and to
the guard that is another request. The entry of a map stays as long as somebody holds the map. No
entry is about an empty map, and one with the token of a held map is about that map. A request that
changes what is kept leaves at most 4096 entries, or only entries of maps that somebody holds. -/
theorem guard_unseen_and_bounded {s : Holding} (h : Holding.Run .start s) :
    (∀ attrs ∈ s.held, (s.guard.suspicious attrs).1 = Suspicious.scan attrs) ∧
    (∀ sources : List Attrs, (∀ attrs ∈ sources, attrs ∈ s.held) →
      (s.guard.collect sources).1 = Guard.scans sources) ∧
    (∀ {σ η : Type} [TreeBuilder σ η] (table : TemplateTable) (policy : MarkPolicy) (tree : σ),
      (∀ (fragment : Fragment) (target : Option η),
        (∀ node ∈ fragment, node.Maps (· ∈ s.held)) →
        RunsAsNew s table (serializeFragment table policy fragment target) tree) ∧
      ∀ node : Node, node.Maps (· ∈ s.held) →
        RunsAsNew s table (serializeNode table policy node) tree) ∧
    (∀ s', Holding.Run s s' → ∀ entry ∈ s.guard.entries, entry.map ∈ s'.held →
      entry ∈ s'.guard.entries) ∧
    (∀ entry ∈ s.guard.entries, entry.map.fields ≠ [] ∧
      ∀ attrs ∈ s.held, (entry.isOf attrs = true ↔ entry.map = attrs)) ∧
    ∀ s', s.Request s' → s'.guard ≠ s.guard →
      s'.guard.cached ≤ 4096 ∨ ∀ entry ∈ s'.guard.entries, entry.map ∈ s'.held := by
  have hs : s.Valid := Holding.valid_start.run h
  have hheld : ∀ attrs ∈ s.held, hs.pool.has attrs := fun _ hm => Holding.Valid.held_known hm
  refine ⟨fun attrs hm => (hs.faithful.suspicious (hheld attrs hm)).1,
    fun sources hm => (hs.faithful.collect_eq fun attrs hmem => hheld attrs (hm attrs hmem)).1,
    fun table policy tree => ⟨fun fragment target hmaps => ?_, fun node hmaps => ?_⟩,
    fun s' hr entry he hm => hs.mem_run hr he hm,
    fun entry he => ⟨hs.filled _ (Guard.map_mem_maps he), fun attrs hm => hs.isOf_iff hm he⟩,
    fun s' hreq hne => hs.trim hreq hne⟩
  · refine .of_alongside (fun _ _ _ _ heq => heq) hs (.serializeFragment table policy hmaps target)
      fun hst => (Pairing.twins tree).serializeFragment table policy
        (fun node hmem => (hmaps node hmem).mono hheld) hst ?_
    cases target with
    | none => exact .none
    | some root => exact .some rfl
  · exact .of_alongside (fun _ _ _ _ heq => heq) hs (.serializeNode table policy hmaps)
      fun hst => (Pairing.twins tree).serializeNode table policy (hmaps.mono hheld) hst

/-- A map was scanned and is gone when another one with the same contents is made. Its entry is
still kept, but is not taken for one about the other map. -/
theorem guard_unseen_and_bounded_sample :
    let fields : Json.Fields := [("spec", .arr [.str "p"])]
    let first : Attrs := ⟨0, fields⟩
    let second : Attrs := ⟨1, fields⟩
    let s : Holding := ⟨2, [second], ⟨[⟨first, [⟨0, "spec", []⟩], false⟩]⟩⟩
    Holding.Run .start s ∧ (s.guard.suspicious second).1 = [⟨1, "spec", []⟩] ∧
      s.Request (s.ask second) ∧ (s.ask second).guard ≠ s.guard ∧
      ((s.ask second).guard.cached ≤ 4096 ∨
        ∀ entry ∈ (s.ask second).guard.entries, entry.map ∈ (s.ask second).held) := by
  intro fields first second s
  let made : Holding := ⟨1, [first], .empty⟩
  let scanned : Holding := ⟨1, [first], ⟨[⟨first, [⟨0, "spec", []⟩], true⟩]⟩⟩
  let gone : Holding := ⟨1, [], ⟨[⟨first, [⟨0, "spec", []⟩], false⟩]⟩⟩
  have hscanned : Holding.Step made scanned :=
    show Holding.Step made (made.ask first) from .request (.suspicious List.mem_cons_self)
  have hgone : scanned.drop first = gone := by
    rw [Holding.drop, List.erase_cons_head, if_neg List.not_mem_nil]
    rfl
  have hdropped : Holding.Step scanned gone := hgone ▸ .drop List.mem_cons_self
  have hrun : Holding.Run .start s :=
    (((Relation.ReflTransGen.single (.make rfl)).tail hscanned).tail hdropped).tail (.make rfl)
  obtain ⟨hscan, -, -, -, -, htrim⟩ := guard_unseen_and_bounded hrun
  have hnew : (s.ask second).guard ≠ s.guard := by
    intro heq
    have hlength : (s.ask second).guard.cached = s.guard.cached := congrArg Guard.cached heq
    exact absurd hlength (by decide)
  have hreq : s.Request (s.ask second) := .suspicious List.mem_cons_self
  exact ⟨hrun, hscan second List.mem_cons_self, hreq, hnew, htrim _ hreq hnew⟩

end RichDoc
