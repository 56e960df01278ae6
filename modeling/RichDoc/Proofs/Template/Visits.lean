import RichDoc.Build.Script
import RichDoc.Proofs.Build.Trace
import RichDoc.Proofs.Template.Elements
import RichDoc.Proofs.Template.Flagged

/-!
# The arrays that a rendering gets to

An observed rendering takes down each array of which it is about to create the element: where the
array is stored, its tag, and what has been built by then. From what it takes down one can tell what
the guarded rendering does, whatever arrays it refuses: it stops at the first one that it has to
refuse, and without such an array it does the same.
-/

namespace RichDoc

/-- An array that a rendering got to. -/
structure Visit (σ : Type) where
  origin : Option Origin
  tag : String
  /-- What had been built when the array was about to be created. -/
  before : σ

/-- A tree that is built, and the arrays that the rendering got to. -/
structure Observed (σ : Type) where
  tree : σ
  visits : List (Visit σ)

/-- Work without arrays. -/
def observe {σ α : Type} (work : Building σ α) : Building (Observed σ) α := fun s =>
  ((work s.tree).1, ⟨(work s.tree).2, s.visits⟩)

/-- Get to an array. -/
def visit {σ : Type} (origin : Option Origin) (tag : String) : Building (Observed σ) Unit :=
  modify fun s => ⟨s.tree, s.visits ++ [⟨origin, tag, s.tree⟩]⟩

variable {σ η : Type} [TreeBuilder σ η]

/-- Build the element of an array. -/
def observeArray (origin : Option Origin) (tag : String) (attrs : List (String × Json))
    (fill : η → Building (Observed σ) (Rendered η)) : Building (Observed σ) (Rendered η) := do
  observe (checkTag tag)
  visit origin tag
  let node ← observe (modifyGet fun s => TreeBuilder.createElement s tag)
  observe (setAttributes node attrs)
  fill node

mutual

/-- Render a JSON description under observation. -/
def observeJson (origin : Option Origin) : Json → Building (Observed σ) (Rendered η)
  | .str text => observe (renderText text)
  | .arr (.str tag :: .obj attrs :: items) =>
    observeArray origin tag attrs fun node =>
      observeItems origin tag node (items.length == 1) 2 none items
  | .arr (.str tag :: items) =>
    observeArray origin tag [] fun node =>
      observeItems origin tag node (items.length == 1) 1 none items
  | .arr _ => observe (malformed .noTag)
  | value => observe (malformed (.noTemplate value))

/-- Render the items of a JSON element under observation. -/
def observeItems (origin : Option Origin) (tag : String) (node : η) (alone : Bool) (index : Nat)
    (hole : Option η) : List Json → Building (Observed σ) (Rendered η)
  | [] => pure ⟨node, hole⟩
  | item :: rest =>
    match itemKind item with
    | .hole => if alone then pure ⟨node, some node⟩ else observe (malformed .misplacedHole)
    | .template => do
      let child ← observeJson (origin.map fun place => place.item index) item
      let hole ← observe (adopt node hole child)
      observeItems origin tag node alone (index + 1) hole rest
    | .other => observe (malformed (.badChild item tag))

end

mutual

/-- Render a description under observation. -/
def observeSpec : Spec → Building (Observed σ) (Rendered η)
  | .text text => observe (renderText text)
  | .tree tree => observe (renderTree tree none)
  | .treeWithHole tree none => observe (renderTree tree none)
  | .treeWithHole tree (some hole) =>
    if isElementOf tree hole then observe (renderTree tree (some hole))
    else observe (malformed (.foreignHole hole))
  | .element tag attrs children => do
    observe (checkTag tag)
    let node ← observe (modifyGet fun s => TreeBuilder.createElement s tag)
    observe (setAttributes node attrs)
    observeChildren node (children.length == 1) none children
  | .json value origin => observeJson origin value

/-- Render the children of an element under observation. -/
def observeChildren (node : η) (alone : Bool) (hole : Option η) :
    List SpecChild → Building (Observed σ) (Rendered η)
  | [] => pure ⟨node, hole⟩
  | .hole :: _ => if alone then pure ⟨node, some node⟩ else observe (malformed .misplacedHole)
  | .spec spec :: rest => do
    let child ← observeSpec spec
    let hole ← observe (adopt node hole child)
    observeChildren node alone hole rest

end

/-! ### What observation tells -/

section

omit [TreeBuilder σ η]

/-- A run that stops at the first of some visits that it has to refuse. -/
def stopped {α : Type} (refuse : Option Origin → Bool) (visits : List (Visit σ))
    (whole : Except Error α × σ) : Except Error α × σ :=
  match visits.find? fun v => refuse v.origin with
  | some v => (.error (.unsafeTemplate v.tag), v.before)
  | none => whole

/-- A failure that the guard did not cause. -/
def Error.isInnocent (error : Error) : Prop := ∀ tag, error ≠ .unsafeTemplate tag

/-- Observed work does what the work without refusals does, and tells what becomes of the work with
any refusals. -/
structure Observes {α : Type} (R : σ → σ → Prop) (observed : Building (Observed σ) α)
    (work : List Suspicious → Building σ α) (s : σ) (visits : List (Visit σ)) : Prop where
  /-- Nothing but the visits is new. -/
  same : ∀ earlier, observed ⟨s, earlier⟩ =
    ((work [] s).1, ⟨(work [] s).2, earlier ++ visits⟩)
  /-- Without refusals, the guard causes no failure. -/
  innocent : ∀ error, (work [] s).1 = .error error → error.isInnocent
  later : R s (work [] s).2
  between : ∀ v ∈ visits, R v.before (work [] s).2
  /-- With refusals, the work stops at the first visit that it has to refuse. -/
  refused : ∀ blocked, work blocked s = stopped (isBlocked blocked) visits (work [] s)

/-- From every state, observation tells what the work does. -/
def Observing {α : Type} (R : σ → σ → Prop) (observed : Building (Observed σ) α)
    (work : List Suspicious → Building σ α) : Prop :=
  ∀ s, ∃ visits, Observes R observed work s visits

end

namespace Observing

variable {α β : Type} {R : σ → σ → Prop}

/-- Work that gets to no array. -/
theorem lift {work : Building σ α} (hi : ∀ s error, (work s).1 = .error error → error.isInnocent)
    (hr : ∀ s, R s (work s).2) : Observing R (observe work) fun _ => work := fun s =>
  ⟨[], fun earlier => by rw [List.append_nil]; rfl, hi s, hr s, List.forall_mem_nil _,
    fun _ => rfl⟩

theorem pure (h : Progress R) (a : α) :
    Observing R (Pure.pure a : Building (Observed σ) α) fun _ => Pure.pure a := fun s =>
  ⟨[], fun earlier => by rw [List.append_nil]; rfl, (fun _ he => by cases he), h.refl s,
    List.forall_mem_nil _, fun _ => rfl⟩

/-- A failure that the guard does not cause. -/
theorem malformed (h : Progress R) (fault : TemplateFault) :
    Observing R (observe (malformed fault : Building σ α)) fun _ => RichDoc.malformed fault :=
  lift (fun s error he => by cases he; exact fun _ hsame => by cases hsame) h.refl

/-- Getting to an array that may have to be refused. -/
theorem visit (h : Progress R) (origin : Option Origin) (tag : String) :
    Observing R (visit origin tag) fun blocked =>
      if isBlocked blocked origin then throw (.unsafeTemplate tag) else Pure.pure () := by
  intro s
  refine ⟨[⟨origin, tag, s⟩], fun earlier => ?_, ?_, ?_, ?_, fun blocked => ?_⟩
  · rw [isBlocked_nil]
    rfl
  · rw [isBlocked_nil]
    intro _ he
    cases he
  · rw [isBlocked_nil]
    exact h.refl s
  · rw [isBlocked_nil]
    intro v hv
    rw [List.mem_singleton.mp hv]
    exact h.refl s
  · rw [isBlocked_nil, stopped, List.find?_singleton]
    by_cases hb : isBlocked blocked origin = true
    · simp only [hb, ite_true]
      rfl
    · simp only [hb, Bool.false_eq_true, ite_false]

/-- Observation goes on through work in two parts. A failure ends both of them, unless the guard has
ended the first one before. -/
theorem bind (h : Progress R) {observed : Building (Observed σ) α}
    {work : List Suspicious → Building σ α} {next : α → Building (Observed σ) β}
    {after : List Suspicious → α → Building σ β} (ho : Observing R observed work)
    (hn : ∀ a, Observing R (next a) fun blocked => after blocked a) :
    Observing R (observed >>= next) fun blocked => work blocked >>= after blocked := by
  intro s
  obtain ⟨visits, hs⟩ := ho s
  have hsame := hs.same
  have hinnocent := hs.innocent
  have hlater := hs.later
  have hbetween := hs.between
  have hrefused := hs.refused
  rcases hw : work [] s with ⟨error | a, t⟩
  · simp only [hw] at hsame hinnocent hlater hbetween hrefused
    have hplain := Building.bind_apply_error hw (after [])
    refine ⟨visits, ?_, ?_, ?_, ?_, ?_⟩
    · intro earlier
      rw [hplain, Building.bind_apply_error (hsame earlier)]
    · intro error he
      rw [hplain] at he
      cases he
      exact hinnocent error rfl
    · rw [hplain]
      exact hlater
    · rw [hplain]
      exact hbetween
    · intro blocked
      have hb := hrefused blocked
      rw [hplain]
      unfold stopped at hb ⊢
      split at hb
      · exact Building.bind_apply_error hb _
      · exact Building.bind_apply_error hb _
  · simp only [hw] at hsame hinnocent hlater hbetween hrefused
    obtain ⟨more, hm⟩ := hn a t
    have hplain := Building.bind_apply_ok hw (after [])
    refine ⟨visits ++ more, ?_, ?_, ?_, ?_, ?_⟩
    · intro earlier
      rw [hplain, Building.bind_apply_ok (hsame earlier), hm.same, List.append_assoc]
    · rw [hplain]
      exact hm.innocent
    · rw [hplain]
      exact h.trans hlater hm.later
    · rw [hplain]
      intro v hv
      rcases List.mem_append.mp hv with hv | hv
      · exact h.trans (hbetween v hv) hm.later
      · exact hm.between v hv
    · intro blocked
      have hb := hrefused blocked
      rw [hplain]
      unfold stopped at hb ⊢
      rw [List.find?_append]
      cases hf : visits.find? fun v => isBlocked blocked v.origin with
      | some v =>
        rw [hf] at hb
        exact Building.bind_apply_error hb _
      | none =>
        rw [hf] at hb
        rw [Building.bind_apply_ok hb]
        exact hm.refused blocked

theorem checkTag (h : Progress R) (tag : String) :
    Observing R (observe (checkTag tag : Building σ Unit)) fun _ => RichDoc.checkTag tag := by
  refine lift (fun s error he => ?_) (h.checkTag tag)
  unfold RichDoc.checkTag at he
  split at he
  · cases he
  · cases he
    exact fun _ hsame => by cases hsame

theorem setAttributes (h : Progress R) (node : η) (attrs : List (String × Json)) :
    Observing R (observe (setAttributes node attrs : Building σ Unit)) fun _ =>
      RichDoc.setAttributes node attrs := by
  refine lift (fun s error he => ?_) (h.setAttributes node attrs)
  induction attrs generalizing s with
  | nil => cases he
  | cons attr rest ih =>
    obtain ⟨key, value⟩ := attr
    rw [RichDoc.setAttributes] at he
    split at he
    · exact ih s he
    · split at he
      · exact ih _ he
      · cases he
        exact fun _ hsame => by cases hsame

theorem adopt (h : Progress R) (parent : η) (hole : Option η) (child : Rendered η) :
    Observing R (observe (adopt parent hole child : Building σ (Option η))) fun _ =>
      RichDoc.adopt parent hole child := by
  refine lift (fun s error he => ?_) (h.adopt parent hole child)
  rw [adopt_apply] at he
  split at he
  · cases he
    exact fun _ hsame => by cases hsame
  · cases he

theorem renderText (h : Progress R) (text : String) :
    Observing R (observe (renderText text : Building σ (Rendered η))) fun _ =>
      RichDoc.renderText text :=
  lift (fun s error he => by cases he) fun s => h.createText s text

theorem renderTree (h : Progress R) (tree : Subtree) (hole : Option Link) :
    Observing R (observe (renderTree tree hole : Building σ (Rendered η))) fun _ =>
      RichDoc.renderTree tree hole :=
  lift (fun s error he => by cases he) fun s => h.graft hole tree.tree s

/-- An element is created, gets its attributes, and is filled. -/
theorem element (h : Progress R) (tag : String) (attrs : List (String × Json))
    {fill : η → Building (Observed σ) (Rendered η)}
    {work : List Suspicious → η → Building σ (Rendered η)}
    (hf : ∀ node, Observing R (fill node) fun blocked => work blocked node) :
    Observing R
      (do
        let node ← observe (modifyGet fun s => TreeBuilder.createElement s tag)
        observe (RichDoc.setAttributes node attrs)
        fill node)
      fun blocked => (do
        let node ← modifyGet fun s => TreeBuilder.createElement s tag
        RichDoc.setAttributes node attrs
        work blocked node) := by
  have hcreate : Observing R (observe (modifyGet fun s => TreeBuilder.createElement s tag :
      Building σ η)) fun _ => modifyGet fun s => TreeBuilder.createElement s tag :=
    lift (fun s error he => by cases he) fun s => h.createElement s tag
  exact hcreate.bind h fun node => (setAttributes h node attrs).bind h fun _ => hf node

/-- The element of an array is created after the guard has let it pass. -/
theorem array (h : Progress R) (origin : Option Origin) (tag : String)
    (attrs : List (String × Json)) {fill : η → Building (Observed σ) (Rendered η)}
    {work : List Suspicious → η → Building σ (Rendered η)}
    (hf : ∀ node, Observing R (fill node) fun blocked => work blocked node) :
    Observing R (observeArray origin tag attrs fill) fun blocked =>
      buildElement tag (isBlocked blocked origin) attrs (work blocked) := by
  have hguard := (visit h origin tag).bind h fun _ => element h tag attrs hf
  have hall := (checkTag h tag).bind h fun _ => hguard
  have heq : ∀ blocked, buildElement tag (isBlocked blocked origin) attrs (work blocked) =
      RichDoc.checkTag tag >>= fun _ =>
        (if isBlocked blocked origin then throw (.unsafeTemplate tag) else Pure.pure ()) >>=
          fun _ => modifyGet (fun s => TreeBuilder.createElement s tag) >>= fun node =>
            RichDoc.setAttributes node attrs >>= fun _ => work blocked node := by
    intro blocked
    unfold buildElement
    congr 1
    funext _
    split <;> rfl
  simp only [heq]
  exact hall

/-- A child is rendered and adopted, and what follows goes on from there. -/
theorem child (h : Progress R) (node : η) (hole : Option η)
    {observed : Building (Observed σ) (Rendered η)}
    {work : List Suspicious → Building σ (Rendered η)}
    {next : Option η → Building (Observed σ) (Rendered η)}
    {after : List Suspicious → Option η → Building σ (Rendered η)}
    (ho : Observing R observed work)
    (hn : ∀ hole, Observing R (next hole) fun blocked => after blocked hole) :
    Observing R (observed >>= fun child => observe (RichDoc.adopt node hole child) >>= next)
      fun blocked => work blocked >>= fun child =>
        RichDoc.adopt node hole child >>= after blocked :=
  ho.bind h fun child => (adopt h node hole child).bind h hn

/-- The place for content is allowed if it is the only child. -/
theorem hole (h : Progress R) (node : η) (alone : Bool) :
    Observing R (if alone then Pure.pure ⟨node, some node⟩
        else observe (RichDoc.malformed .misplacedHole) : Building (Observed σ) (Rendered η))
      fun _ => if alone then Pure.pure ⟨node, some node⟩
        else RichDoc.malformed .misplacedHole := by
  cases alone with
  | true => exact pure h _
  | false => exact malformed h _

end Observing

/-- The JSON description of an element under observation. -/
theorem observeJson_array (origin : Option Origin) (tag : String) (items : List Json) :
    (observeJson origin (.arr (.str tag :: items)) : Building (Observed σ) (Rendered η)) =
      observeArray origin tag (arrayParts items).1 fun node =>
        observeItems origin tag node ((arrayParts items).2.2.length == 1) (arrayParts items).2.1
          none (arrayParts items).2.2 := by
  unfold arrayParts
  split
  · rw [observeJson]
  · rw [observeJson]
    assumption

section

variable {R : σ → σ → Prop} (h : Progress R)
include h

mutual

/-- Observation tells what becomes of a JSON description. -/
theorem observing_json (origin : Option Origin) (value : Json) :
    Observing R (observeJson origin value : Building (Observed σ) (Rendered η)) fun blocked =>
      renderJson blocked origin value := by
  match value with
  | .str text =>
    simp only [observeJson, renderJson]
    exact .renderText h text
  | .arr (.str tag :: items) =>
    simp only [observeJson_array, renderJson_array]
    exact .array h origin tag _ fun node => observing_items origin tag node _ _ none _
  | .arr [] | .arr (.null :: _) | .arr (.bool _ :: _) | .arr (.num _ :: _) | .arr (.arr _ :: _)
  | .arr (.obj _ :: _) => exact .malformed h _
  | .null | .bool _ | .num _ | .obj _ => exact .malformed h _
termination_by sizeOf value
decreasing_by
  have := sizeOf_arrayParts items
  simp only [Json.arr.sizeOf_spec, List.cons.sizeOf_spec]
  omega

theorem observing_items (origin : Option Origin) (tag : String) (node : η) (alone : Bool)
    (index : Nat) (hole : Option η) (items : List Json) :
    Observing R
      (observeItems origin tag node alone index hole items : Building (Observed σ) (Rendered η))
      fun blocked => renderItems blocked origin tag node alone index hole items := by
  match items with
  | [] =>
    simp only [observeItems, renderItems]
    exact .pure h _
  | item :: rest =>
    simp only [observeItems, renderItems]
    cases itemKind item with
    | hole => exact .hole h node alone
    | template =>
      exact .child h node hole (observing_json _ item) fun hole =>
        observing_items origin tag node alone (index + 1) hole rest
    | other => exact .malformed h _
termination_by sizeOf items

end

mutual

/-- Observation tells what becomes of a description. -/
theorem observing_spec : (spec : Spec) →
    Observing R (observeSpec spec : Building (Observed σ) (Rendered η)) fun blocked =>
      renderSpec blocked spec
  | .text text => by
    simp only [observeSpec, renderSpec]
    exact .renderText h text
  | .tree tree => by
    simp only [observeSpec, renderSpec]
    exact .renderTree h tree none
  | .treeWithHole tree none => by
    simp only [observeSpec, renderSpec]
    exact .renderTree h tree none
  | .treeWithHole tree (some hole) => by
    simp only [observeSpec, renderSpec]
    cases isElementOf tree hole with
    | true => exact .renderTree h tree (some hole)
    | false => exact .malformed h _
  | .element tag attrs children => by
    simp only [observeSpec, renderSpec]
    exact (Observing.checkTag h tag).bind h fun _ => .element h tag attrs fun node =>
      observing_children node _ none children
  | .json value origin => by
    simp only [observeSpec, renderSpec]
    exact observing_json h origin value

theorem observing_children (node : η) (alone : Bool) : (hole : Option η) →
    (children : List SpecChild) →
    Observing R (observeChildren node alone hole children : Building (Observed σ) (Rendered η))
      fun blocked => renderChildren blocked node alone hole children
  | hole, [] => by
    simp only [observeChildren, renderChildren]
    exact .pure h _
  | hole, .hole :: _ => by
    simp only [observeChildren, renderChildren]
    exact .hole h node alone
  | hole, .spec spec :: rest => by
    simp only [observeChildren, renderChildren]
    exact .child h node hole (observing_spec spec) fun hole =>
      observing_children node alone hole rest

end

end

/-- What is rendered in spite of refusals is rendered without them. -/
theorem renderSpec_nil_of_ok {blocked : List Suspicious} {spec : Spec} {s t : σ}
    {rendered : Rendered η} (h : renderSpec blocked spec s = (.ok rendered, t)) :
    renderSpec [] spec s = (.ok rendered, t) := by
  have hanything : Progress (σ := σ) fun _ _ => True :=
    ⟨fun _ => trivial, fun _ _ => trivial, fun _ _ => trivial, fun _ _ => trivial,
      fun _ => trivial, fun _ _ _ _ => trivial, fun _ _ _ => trivial⟩
  obtain ⟨visits, ho⟩ := observing_spec hanything spec s
  have hrefused := ho.refused blocked
  rw [h] at hrefused
  unfold stopped at hrefused
  split at hrefused
  · cases hrefused
  · exact hrefused.symm

/-- An array that is stored in the attributes of a source. -/
def Visit.IsStolen (sources : List Attrs) (v : Visit σ) : Prop :=
  ∃ place, v.origin = some place ∧ Flagged sources place

omit [TreeBuilder σ η] in
/-- What is blocked after a request to the guard is what is flagged in the sources. -/
theorem isBlocked_collect {pool : Pool} {guard : Guard} (hg : guard.Reachable pool)
    {sources : List Attrs} (hs : ∀ attrs ∈ sources, pool.has attrs) (v : Visit σ) :
    isBlocked (guard.collect sources).1 v.origin = true ↔ v.IsStolen sources := by
  unfold Visit.IsStolen
  cases v.origin with
  | none => simp [isBlocked]
  | some place =>
    have h := hg.faithful.collect hs place
    simp only [isBlocked, List.any_eq_true, List.contains_iff_mem, h, Option.some.injEq,
      exists_eq_left']

/-- The guarded rendering is the plain one stopped at the first stolen array, whatever the guard was
asked before about maps that were made. The plain rendering never refuses an array, and a first part
of its calls are those of the guarded one. If it gets to no stolen array, both do the same, down to
the failure; else the guarded rendering fails with the tag of the first one, and has built what the
plain one had built when it was about to create that element. Nothing else is refused. -/
theorem renderGuarded_stops {pool : Pool} {guard : Guard} (hg : guard.Reachable pool)
    {sources : List Attrs} (hm : ∀ attrs ∈ sources, pool.has attrs) (spec : Spec)
    (s : Traced σ η) :
    ∃ visits, observeSpec spec ⟨s, []⟩ = ((spec.render s).1, ⟨(spec.render s).2, visits⟩) ∧
      (∀ tag, (spec.render s).1 ≠ .error (.unsafeTemplate tag)) ∧
      (spec.renderGuarded sources ⟨guard, s⟩).2.tree.calls <+: (spec.render s).2.calls ∧
      ((∀ v ∈ visits, ¬v.IsStolen sources) →
        (spec.renderGuarded sources ⟨guard, s⟩).1 = (spec.render s).1 ∧
          (spec.renderGuarded sources ⟨guard, s⟩).2.tree = (spec.render s).2) ∧
      (∀ earlier v later, visits = earlier ++ v :: later →
        (∀ u ∈ earlier, ¬u.IsStolen sources) → v.IsStolen sources →
        (spec.renderGuarded sources ⟨guard, s⟩).1 = .error (.unsafeTemplate v.tag) ∧
          (spec.renderGuarded sources ⟨guard, s⟩).2.tree = v.before) ∧
      ∀ tag, (spec.renderGuarded sources ⟨guard, s⟩).1 = .error (.unsafeTemplate tag) →
        ∃ v ∈ visits, v.IsStolen sources ∧ v.tag = tag := by
  obtain ⟨visits, ho⟩ := observing_spec (progress_calls (σ := σ)) spec s
  have hsame := ho.same []
  rw [List.nil_append] at hsame
  have hguarded : spec.renderGuarded sources ⟨guard, s⟩ =
      ((stopped (isBlocked (guard.collect sources).1) visits (spec.render s)).1,
        ⟨(guard.collect sources).2,
          (stopped (isBlocked (guard.collect sources).1) visits (spec.render s)).2⟩) := by
    have hrefused := ho.refused (guard.collect sources).1
    rw [Spec.render, ← hrefused]
    rfl
  have hinnocent : ∀ tag, (spec.render s).1 ≠ .error (.unsafeTemplate tag) :=
    fun tag he => ho.innocent _ he tag rfl
  have hblocked := fun v : Visit (Traced σ η) => isBlocked_collect hg hm v
  refine ⟨visits, hsame, hinnocent, ?_, ?_, ?_, ?_⟩
  · rw [hguarded, stopped]
    dsimp only
    split
    · exact ho.between _ (List.mem_of_find?_eq_some ‹_›)
    · exact List.prefix_refl _
  · intro hnone
    have hf : (visits.find? fun v => isBlocked (guard.collect sources).1 v.origin) = none :=
      List.find?_eq_none.mpr fun v hv hb => hnone v hv ((hblocked v).mp hb)
    rw [hguarded, stopped, hf]
    exact ⟨rfl, rfl⟩
  · intro earlier v later hsplit hearlier hv
    have hf : (visits.find? fun v => isBlocked (guard.collect sources).1 v.origin) = some v := by
      rw [hsplit]
      refine List.find?_eq_some_iff_append.mpr ⟨(hblocked v).mpr hv, earlier, later, rfl, ?_⟩
      intro u hu
      rw [Bool.not_eq_true']
      exact Bool.eq_false_iff.mpr fun hb => hearlier u hu ((hblocked u).mp hb)
    rw [hguarded, stopped, hf]
    exact ⟨rfl, rfl⟩
  · intro tag he
    rw [hguarded, stopped] at he
    dsimp only at he
    split at he
    · rename_i v hf
      refine ⟨v, List.mem_of_find?_eq_some hf, ?_, by cases he; rfl⟩
      exact (hblocked v).mp
        (List.find?_some (p := fun v => isBlocked _ (Visit.origin v)) hf)
    · exact absurd he (hinnocent tag)

/-- Attributes that hold an image. -/
def sampleSource : Attrs := ⟨7, [("embed", .arr [.str "img"])]⟩

/-- A template that hands on the image twice: as a copy, and as the array that is stored. -/
def sampleStolen : Spec :=
  .element "p" []
    [.spec (.json (.arr [.str "img"]) none),
      .spec (.json (.arr [.str "img"]) (some ⟨7, "embed", []⟩))]

set_option maxRecDepth 10000 in
/-- The copy is rendered, and the stored array is refused. -/
theorem renderGuarded_stops_sample :
    (sampleStolen.renderGuarded [sampleSource]
        (⟨.empty, ⟨.empty, []⟩⟩ : Guarded (Traced Script Nat))).1 =
        .error (.unsafeTemplate "img") ∧
      (sampleStolen.render (⟨.empty, []⟩ : Traced Script Nat)).1 = .ok ⟨1, none⟩ := by
  have hmade : ∀ attrs ∈ [sampleSource], (Pool.one sampleSource).has attrs :=
    List.forall_mem_singleton.mpr rfl
  obtain ⟨visits, hv, -, -, -, hstop, -⟩ := renderGuarded_stops .empty hmade sampleStolen
    (⟨.empty, []⟩ : Traced Script Nat)
  have hvisits := congrArg (fun run => run.2.visits) hv
  refine ⟨(hstop [_] _ [] hvisits.symm ?_ ?_).1, rfl⟩
  · intro u hu
    rw [List.mem_singleton.mp hu]
    rintro ⟨place, hp, -⟩
    cases hp
  · exact ⟨_, rfl, sampleSource, List.mem_singleton.mpr rfl, _, List.mem_singleton.mpr rfl, _,
      .here _ _, rfl⟩

end RichDoc
