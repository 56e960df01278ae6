import RichDoc.Proofs.Template.Recursion

/-!
# What can go wrong in rendering

A description that cannot be rendered breaks a rule of the template language or hands back a stored
array. Either way its template is to blame, whatever is built.
-/

namespace RichDoc

variable {σ η α β : Type} [TreeBuilder σ η]

/-- When work fails, a template is to blame. -/
def Building.BlamesTemplate (work : Building σ α) : Prop :=
  ∀ s error, (work s).1 = .error error → error.isTemplateError = true

namespace Building.BlamesTemplate

omit [TreeBuilder σ η] in
/-- Work that succeeds blames nobody. -/
theorem of_ok {work : Building σ α} (h : ∀ s, ∃ a, (work s).1 = .ok a) :
    work.BlamesTemplate := by
  intro s error he
  obtain ⟨a, ha⟩ := h s
  rw [ha] at he
  cases he

omit [TreeBuilder σ η] in
/-- Work that does nothing does not fail. -/
theorem pure (a : α) : (Pure.pure a : Building σ α).BlamesTemplate := of_ok fun _ => ⟨a, rfl⟩

omit [TreeBuilder σ η] in
/-- Work may fail with a fault of the template. -/
theorem throw {error : Error} (h : error.isTemplateError = true) :
    (MonadExcept.throw error : Building σ α).BlamesTemplate := by
  intro s other he
  cases he
  exact h

omit [TreeBuilder σ η] in
/-- A malformed template is a fault of the template. -/
theorem malformed (fault : TemplateFault) :
    (malformed fault : Building σ α).BlamesTemplate := throw rfl

omit [TreeBuilder σ η] in
/-- Work in two parts fails where one of them does. -/
theorem bind {work : Building σ α} {next : α → Building σ β} (h : work.BlamesTemplate)
    (hn : ∀ a, (next a).BlamesTemplate) : (work >>= next).BlamesTemplate := by
  intro s error he
  rcases hw : work s with ⟨other | a, t⟩
  · rw [Building.bind_apply_error hw] at he
    cases he
    exact h s error (by rw [hw])
  · rw [Building.bind_apply_ok hw] at he
    exact hn a t error he

omit [TreeBuilder σ η] in
/-- A tag that is no name is a fault of the template. -/
theorem checkTag (tag : String) : (checkTag tag : Building σ Unit).BlamesTemplate := by
  unfold RichDoc.checkTag
  split
  · exact .pure ()
  · exact .malformed _

/-- An attribute that has no name is a fault of the template. -/
theorem setAttributes (node : η) (attrs : List (String × Json)) :
    (setAttributes node attrs : Building σ Unit).BlamesTemplate := by
  induction attrs with
  | nil => exact .pure ()
  | cons attr rest ih =>
    obtain ⟨key, value⟩ := attr
    rw [RichDoc.setAttributes]
    split
    · exact ih
    · split
      · exact .bind (.of_ok fun _ => ⟨_, rfl⟩) fun _ => ih
      · exact .malformed _

/-- Text is always rendered. -/
theorem renderText (text : String) :
    (renderText text : Building σ (Rendered η)).BlamesTemplate :=
  .of_ok fun _ => ⟨_, rfl⟩

/-- A second hole is a fault of the template. -/
theorem adopt (parent : η) (hole : Option η) (child : Rendered η) :
    (adopt parent hole child : Building σ (Option η)).BlamesTemplate := by
  intro s error he
  rw [adopt_apply] at he
  split at he
  · cases he
    rfl
  · cases he

/-- A tree is always copied. -/
theorem renderTree (tree : Subtree) (hole : Option Link) :
    (renderTree tree hole : Building σ (Rendered η)).BlamesTemplate :=
  .of_ok fun _ => ⟨_, rfl⟩

/-- An element can be blamed for its own rules, and for what fills it. -/
theorem buildElement (tag : String) (refused : Bool) (attrs : List (String × Json))
    {fill : η → Building σ (Rendered η)} (hf : ∀ node, (fill node).BlamesTemplate) :
    (buildElement tag refused attrs fill).BlamesTemplate := by
  refine .bind (.checkTag tag) fun _ => ?_
  split
  · exact .throw rfl
  · refine .bind (.of_ok fun _ => ⟨_, rfl⟩) fun node => ?_
    exact .bind (.setAttributes node attrs) fun _ => hf node

/-- Every rendering that fails blames its template. -/
theorem renderRules : RenderRules
    (fun (_ : σ) result _ => ∀ error, result = .error error → error.isTemplateError = true)
    (fun _ (_ : η) _ => True)
    (fun _ _ result _ => ∀ error, result = .error error → error.isTemplateError = true) where
  text s text := renderText text s
  tree s tree hole := renderTree tree hole s
  refused _ _ h _ he := by
    cases he
    exact h
  element s tag refused attrs _ hf :=
    buildElement tag refused attrs (fun node t => hf node t trivial) s
  done _ := nofun
  hole _ := nofun
  stopped _ h _ he := by
    cases he
    exact h
  child {s node hole work next} _ hm hn error he := by
    rcases hw : work s with ⟨other | child, t⟩
    · rw [Building.bind_apply_error hw] at he
      cases he
      exact hm error (by rw [hw])
    · rw [Building.bind_apply_ok hw] at he
      rcases ha : RichDoc.adopt node hole child t with ⟨other | taken, u⟩
      · rw [Building.bind_apply_error ha] at he
        cases he
        exact adopt node hole child t error (by rw [ha])
      · rw [Building.bind_apply_ok ha] at he
        exact hn taken u trivial error he

/-- When a description cannot be rendered, its template is to blame. -/
theorem renderSpec (blocked : List Suspicious) (spec : Spec) :
    (renderSpec blocked spec : Building σ (Rendered η)).BlamesTemplate := fun s =>
  renderRules.renderSpec blocked spec s

/-- The guard blames templates too. -/
theorem renderGuarded (spec : Spec) (sources : List Attrs) :
    (spec.renderGuarded sources : Guarding σ (Rendered η)).BlamesTemplate := fun state error he =>
  renderSpec (state.guard.collect sources).1 spec state.tree error he

end Building.BlamesTemplate

end RichDoc
