import RichDoc.Serializer

/-!
# Running work

Work that builds a tree is a function of what has been built. These equations say how the parts of
such work run: a failure skips what follows and keeps what was built before it.
-/

namespace RichDoc

variable {σ α β : Type}

namespace Building

@[simp] theorem modify_apply (f : σ → σ) (s : σ) :
    (modify f : Building σ PUnit) s = (.ok (), f s) := rfl

@[simp] theorem modifyGet_apply (f : σ → α × σ) (s : σ) :
    (modifyGet f : Building σ α) s = (.ok (f s).1, (f s).2) := rfl

@[simp] theorem get_apply (s : σ) : (get : Building σ σ) s = (.ok s, s) := rfl

/-- Work goes on only after a success. -/
theorem bind_apply (work : Building σ α) (next : α → Building σ β) (s : σ) :
    (work >>= next) s =
      match work s with
      | (.ok a, s') => next a s'
      | (.error error, s') => (.error error, s') := by
  simp only [bind, ExceptT.bind, ExceptT.mk, StateT.bind, ExceptT.bindCont]
  rcases work s with ⟨_ | _, s'⟩ <;> rfl

/-- What follows a success starts where it ended. -/
theorem bind_apply_ok {work : Building σ α} {s s' : σ} {a : α} (h : work s = (.ok a, s'))
    (next : α → Building σ β) : (work >>= next) s = next a s' := by
  simp only [bind_apply, h]

/-- What follows a failure is skipped. -/
theorem bind_apply_error {work : Building σ α} {s s' : σ} {error : Error}
    (h : work s = (.error error, s')) (next : α → Building σ β) :
    (work >>= next) s = (.error error, s') := by
  simp only [bind_apply, h]

/-- Work of two parts succeeds when both do. -/
theorem bind_eq_ok {work : Building σ α} {next : α → Building σ β} {s s' : σ} {b : β} :
    (work >>= next) s = (.ok b, s') ↔
      ∃ a t, work s = (.ok a, t) ∧ next a t = (.ok b, s') := by
  constructor
  · intro h
    rcases hw : work s with ⟨error | a, t⟩
    · rw [bind_apply_error hw] at h
      cases h
    · exact ⟨a, t, rfl, (bind_apply_ok hw next).symm.trans h⟩
  · rintro ⟨a, t, hw, h⟩
    exact (bind_apply_ok hw next).trans h

/-- Work of two parts fails in one of them. -/
theorem bind_eq_error {work : Building σ α} {next : α → Building σ β} {s s' : σ} {error : Error} :
    (work >>= next) s = (.error error, s') ↔
      work s = (.error error, s') ∨ ∃ a t, work s = (.ok a, t) ∧ next a t = (.error error, s') := by
  constructor
  · intro h
    rcases hw : work s with ⟨failure | a, t⟩
    · rw [bind_apply_error hw] at h
      cases h
      exact Or.inl rfl
    · exact Or.inr ⟨a, t, rfl, (bind_apply_ok hw next).symm.trans h⟩
  · rintro (hw | ⟨a, t, hw, h⟩)
    · exact bind_apply_error hw next
    · exact (bind_apply_ok hw next).trans h

theorem map_eq_ok {f : α → β} {work : Building σ α} {s s' : σ} {b : β} :
    (f <$> work) s = (.ok b, s') ↔ ∃ a, work s = (.ok a, s') ∧ f a = b := by
  rw [← bind_pure_comp, bind_eq_ok]
  constructor
  · rintro ⟨a, t, hw, h⟩
    cases h
    exact ⟨a, hw, rfl⟩
  · rintro ⟨a, hw, rfl⟩
    exact ⟨a, s', hw, rfl⟩

/-- A function is applied to results only. -/
theorem map_apply (f : α → β) (work : Building σ α) (s : σ) :
    (f <$> work) s = ((work s).1.map f, (work s).2) := by
  rw [← bind_pure_comp, bind_apply]
  rcases work s with ⟨_ | _, t⟩ <;> rfl

/-- A result that a function was applied to comes from a result. -/
theorem ok_of_map {f : α → β} {result : Except Error α} {b : β} (h : result.map f = .ok b) :
    ∃ a, result = .ok a ∧ f a = b := by
  cases result with
  | error error => cases h
  | ok a => exact ⟨a, rfl, Except.ok.inj h⟩

/-- Looking at what has been built changes nothing. -/
theorem get_bind_const (work : Building σ α) : ((get : Building σ σ) >>= fun _ => work) = work := by
  funext s
  rw [bind_apply_ok (get_apply s)]

end Building

/-- An attempt succeeds, and tells how the work ended. -/
@[simp] theorem attempt_apply (work : Guarding σ α) (state : Guarded σ) :
    attempt work state = (.ok (work state).1, (work state).2) := rfl

@[simp] theorem appendTo_apply {η : Type} [TreeBuilder σ η] (parent child : η)
    (state : Guarded σ) :
    appendTo parent child state =
      (.ok (), ⟨state.guard, TreeBuilder.appendChild state.tree parent child⟩) := rfl

/-- A child is appended unless it brings a second hole. -/
theorem adopt_apply {η : Type} [TreeBuilder σ η] (parent : η) (hole : Option η)
    (child : Rendered η) (s : σ) :
    adopt parent hole child s =
      if child.hole.isSome ∧ hole.isSome then
        (.error (.malformedTemplate .severalHoles), s)
      else (.ok (child.hole.or hole), TreeBuilder.appendChild s parent child.root) := by
  obtain ⟨root, inner⟩ := child
  cases inner <;> cases hole <;> rfl

end RichDoc
