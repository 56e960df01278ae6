import RichDoc.Proofs.Template.Flagged
import Mathlib.Logic.Relation

/-!
# Maps that come and go

Attribute maps are made, handed on and let go while a guard answers requests about those that
somebody holds. The guard may keep the scan of a map that is gone, but never takes it for the scan
of another map, since no token is used twice. It drops only such scans, and when it has to make room
for a new one it drops them all. A map that is held at the end of a run has been held since it was
made, so its scan, once kept, is never dropped.
-/

namespace RichDoc

namespace Guard

variable {guard : Guard} {attrs : Attrs} {entry : GuardEntry}

/-! ### What a request changes -/

/-- The maps whose scans are kept. -/
def maps (guard : Guard) : List Attrs := guard.entries.map GuardEntry.map

/-- The map of an entry is one of those whose scans are kept. -/
theorem map_mem_maps (h : entry ∈ guard.entries) : entry.map ∈ guard.maps :=
  List.mem_map_of_mem h

/-- Letting go of a map leaves its scan where it is. -/
@[simp] theorem maps_release (guard : Guard) (id : Nat) : (guard.release id).maps = guard.maps := by
  rw [maps, release, List.map_map]
  refine List.map_congr_left fun entry _ => ?_
  rw [Function.comp_apply]
  split <;> rfl

/-- What somebody holds is not cleared out. -/
theorem mem_cleared (h : entry ∈ guard.entries) (ha : entry.alive = true) :
    entry ∈ guard.cleared := by
  unfold cleared
  split
  · exact List.mem_filter.mpr ⟨h, ha⟩
  · exact h

/-- A request leaves what is kept, or adds a new scan after clearing out. -/
theorem kept_or_added (guard : Guard) (attrs : Attrs) :
    (guard.suspicious attrs).2 = guard ∨
      attrs.fields ≠ [] ∧ (∀ entry ∈ guard.entries, entry.isOf attrs = false) ∧
        (guard.suspicious attrs).2 =
          ⟨guard.cleared ++ [⟨attrs, Suspicious.scan attrs, true⟩]⟩ := by
  obtain ⟨-, hrun⟩ | ⟨_, -, -, hrun⟩ | ⟨hfields, hnone, hrun⟩ := guard.suspicious_cases attrs
  · exact Or.inl (congrArg Prod.snd hrun)
  · exact Or.inl (congrArg Prod.snd hrun)
  · exact Or.inr ⟨hfields, hnone, congrArg Prod.snd hrun⟩

/-- At most as many scans are kept as fit, or somebody holds all of their maps. -/
def Trim (guard : Guard) : Prop :=
  guard.cached ≤ threshold ∨ ∀ entry ∈ guard.entries, entry.alive = true

/-- A request that changes what is kept leaves it trim. -/
theorem trim_suspicious (h : (guard.suspicious attrs).2 ≠ guard) :
    (guard.suspicious attrs).2.Trim := by
  obtain hsame | ⟨-, -, hnew⟩ := guard.kept_or_added attrs
  · exact absurd hsame h
  · rw [hnew]
    by_cases hfull : threshold ≤ guard.cached
    · refine Or.inr fun entry hmem => ?_
      rw [cleared, if_pos hfull] at hmem
      rcases List.mem_append.mp hmem with hmem | hmem
      · exact (List.mem_filter.mp hmem).2
      · rw [List.mem_singleton.mp hmem]
    · refine Or.inl ?_
      rw [cleared, if_neg hfull, cached, List.length_append]
      exact Nat.lt_of_not_le hfull

/-- A series of requests that changes what is kept leaves it trim, since the last of them that
changed something does. -/
theorem trim_collect {sources : List Attrs} (h : (guard.collect sources).2 ≠ guard) :
    (guard.collect sources).2.Trim := by
  induction sources generalizing guard with
  | nil => exact absurd rfl h
  | cons attrs rest ih =>
    rw [collect] at h ⊢
    by_cases hrest : ((guard.suspicious attrs).2.collect rest).2 = (guard.suspicious attrs).2
    · rw [hrest] at h ⊢
      exact trim_suspicious h
    · exact ih hrest

end Guard

/-- The maps that somebody holds, once for each holder, the next token, and a guard. -/
structure Holding where
  next : Nat
  held : List Attrs
  guard : Guard

namespace Holding

/-- Nothing has been made or requested yet. -/
def start : Holding := ⟨0, [], .empty⟩

/-- Let go of a map. The guard learns of it when nobody else holds the map. -/
def drop (s : Holding) (attrs : Attrs) : Holding :=
  { s with
    held := s.held.erase attrs
    guard := if attrs ∈ s.held.erase attrs then s.guard else s.guard.release attrs.id }

/-- Ask the guard about a map. -/
def ask (s : Holding) (attrs : Attrs) : Holding :=
  { s with guard := (s.guard.suspicious attrs).2 }

/-- Ask the guard about several maps. -/
def askAll (s : Holding) (sources : List Attrs) : Holding :=
  { s with guard := (s.guard.collect sources).2 }

/-- The guard is asked about maps one after the other. -/
theorem askAll_cons (s : Holding) (attrs : Attrs) (rest : List Attrs) :
    s.askAll (attrs :: rest) = (s.ask attrs).askAll rest := rfl

/-- A request about maps that somebody holds. -/
inductive Request : Holding → Holding → Prop where
  | suspicious {s attrs} : attrs ∈ s.held → Request s (s.ask attrs)
  | collect {s sources} : (∀ attrs ∈ sources, attrs ∈ s.held) → Request s (s.askAll sources)

/-- What can happen next. -/
inductive Step : Holding → Holding → Prop where
  /-- A map is made. -/
  | make {s fields attrs next} : Attrs.make fields s.next = (.ok attrs, next) →
      Step s ⟨next, attrs :: s.held, s.guard⟩
  /-- Somebody who holds a map hands it on. -/
  | clone {s attrs} : attrs ∈ s.held → Step s { s with held := attrs :: s.held }
  | drop {s attrs} : attrs ∈ s.held → Step s (s.drop attrs)
  | request {s s'} : Request s s' → Step s s'

/-- Any number of steps. -/
abbrev Run : Holding → Holding → Prop := Relation.ReflTransGen Step

/-- The maps that somebody holds or whose scans are kept. -/
def known (s : Holding) : List Attrs := s.held ++ s.guard.maps

/-- What holds after every run. Tokens of known maps are old and tell the maps apart, the guard
knows which maps somebody holds, and it keeps right scans of maps that are not empty, at most one of
each. -/
structure Valid (s : Holding) : Prop where
  old : ∀ attrs ∈ s.known, attrs.id < s.next
  apart : TokensHonest (· ∈ s.known)
  alive : ∀ entry ∈ s.guard.entries, (entry.alive = true ↔ entry.map ∈ s.held)
  filled : ∀ attrs ∈ s.guard.maps, attrs.fields ≠ []
  nodup : s.guard.maps.Nodup
  scanned : ∀ entry ∈ s.guard.entries, entry.found = Suspicious.scan entry.map

variable {s s' s'' : Holding} {attrs : Attrs}

/-- Nothing is known at the start. -/
theorem valid_start : Valid start :=
  ⟨nofun, nofun, nofun, nofun, List.nodup_nil, nofun⟩

namespace Valid

/-- A map that somebody holds is known. -/
theorem held_known (h : attrs ∈ s.held) : attrs ∈ s.known := List.mem_append_left _ h

/-- A map whose scan is kept is known. -/
theorem entry_known {entry : GuardEntry} (h : entry ∈ s.guard.entries) : entry.map ∈ s.known :=
  List.mem_append_right _ (Guard.map_mem_maps h)

/-- The maps that are known. -/
def pool (h : s.Valid) : Pool := ⟨(· ∈ s.known), h.apart⟩

/-- The guard keeps scans of known maps. -/
theorem faithful (h : s.Valid) : s.guard.Faithful h.pool := fun entry he =>
  ⟨entry_known he, h.scanned entry he⟩

/-- An entry that has the token of a map that somebody holds is about that map. -/
theorem isOf_iff (h : s.Valid) (hm : attrs ∈ s.held) {entry : GuardEntry}
    (he : entry ∈ s.guard.entries) : entry.isOf attrs = true ↔ entry.map = attrs := by
  constructor
  · intro hof
    exact h.apart _ _ (entry_known he) (held_known hm) (eq_of_beq hof)
  · rintro rfl
    exact beq_self_eq_true _

/-- A new map has a token that no known map has. -/
theorem make (h : s.Valid) (fields : Json.Fields) :
    Valid ⟨s.next + 1, ⟨s.next, fields⟩ :: s.held, s.guard⟩ := by
  have hknown : ∀ attrs ∈ known ⟨s.next + 1, ⟨s.next, fields⟩ :: s.held, s.guard⟩,
      attrs = ⟨s.next, fields⟩ ∨ attrs ∈ s.known := fun attrs hmem => List.mem_cons.mp hmem
  refine ⟨fun attrs hmem => ?_, fun attrs other hmem hother hid => ?_, fun entry he => ?_,
    h.filled, h.nodup, h.scanned⟩
  · rcases hknown attrs hmem with rfl | hmem
    · exact Nat.lt_succ_self _
    · exact Nat.lt_succ_of_lt (h.old attrs hmem)
  · rcases hknown attrs hmem with rfl | hmem <;> rcases hknown other hother with rfl | hother
    · rfl
    · exact absurd hid.symm (Nat.ne_of_lt (h.old other hother))
    · exact absurd hid (Nat.ne_of_lt (h.old attrs hmem))
    · exact h.apart attrs other hmem hother hid
  · have hne : entry.map ≠ ⟨s.next, fields⟩ := fun heq =>
      Nat.ne_of_lt (h.old _ (entry_known he)) (congrArg Attrs.id heq)
    rw [h.alive entry he, List.mem_cons]
    exact (or_iff_right hne).symm

/-- One more holder of a map changes nothing about what is known. -/
theorem clone (h : s.Valid) (hm : attrs ∈ s.held) :
    Valid { s with held := attrs :: s.held } := by
  have hheld : ∀ other, other ∈ attrs :: s.held ↔ other ∈ s.held := fun other =>
    ⟨fun hmem => (List.mem_cons.mp hmem).elim (fun heq => heq ▸ hm) id, List.mem_cons_of_mem _⟩
  have hknown : ∀ other ∈ known { s with held := attrs :: s.held }, other ∈ s.known :=
    fun other hmem => List.mem_append.mpr ((List.mem_append.mp hmem).imp_left (hheld other).mp)
  exact ⟨fun other hmem => h.old other (hknown other hmem), h.apart.mono hknown,
    fun entry he => (h.alive entry he).trans (hheld _).symm, h.filled, h.nodup, h.scanned⟩

/-- The guard learns of the last holder of a map, and since tokens tell maps apart it marks no other
entry as dead. -/
theorem drop (h : s.Valid) (hm : attrs ∈ s.held) : (s.drop attrs).Valid := by
  have hmaps : (s.drop attrs).guard.maps = s.guard.maps := by
    rw [Holding.drop]
    split
    · rfl
    · exact Guard.maps_release _ _
  have hknown : ∀ other ∈ (s.drop attrs).known, other ∈ s.known := by
    intro other hmem
    rw [known, hmaps] at hmem
    exact List.mem_append.mpr ((List.mem_append.mp hmem).imp_left List.mem_of_mem_erase)
  refine ⟨fun other hmem => h.old other (hknown other hmem), h.apart.mono hknown, ?_,
    hmaps ▸ h.filled, hmaps ▸ h.nodup, ?_⟩
  · intro entry he
    have hother : ∀ {entry : GuardEntry}, entry.map ≠ attrs →
        (entry.map ∈ s.held ↔ entry.map ∈ s.held.erase attrs) := fun hne =>
      (List.mem_erase_of_ne hne).symm
    rw [Holding.drop] at he
    dsimp only at he
    split at he
    · rename_i hstays
      rw [h.alive entry he]
      by_cases heq : entry.map = attrs
      · exact iff_of_true (heq ▸ hm) (heq ▸ hstays)
      · exact hother heq
    · rename_i hgone
      obtain ⟨old, ho, rfl⟩ := List.mem_map.mp he
      split
      · rename_i hid
        have heq := h.apart _ _ (entry_known ho) (held_known hm) hid
        exact iff_of_false nofun (heq ▸ hgone)
      · rename_i hid
        exact (h.alive old ho).trans (hother fun heq => hid (congrArg Attrs.id heq))
  · intro entry he
    rw [Holding.drop] at he
    dsimp only at he
    split at he
    · exact h.scanned entry he
    · exact (h.faithful.release _ entry he).2

/-- A new scan is that of a map that somebody holds, and no other scan of it is kept. -/
theorem ask (h : s.Valid) (hm : attrs ∈ s.held) : (s.ask attrs).Valid := by
  obtain hsame | ⟨hfields, hnone, hnew⟩ := s.guard.kept_or_added attrs
  · rw [Holding.ask, hsame]
    exact h
  · have hmaps : (s.ask attrs).guard.maps = s.guard.cleared.map GuardEntry.map ++ [attrs] := by
      rw [Holding.ask, hnew, Guard.maps, List.map_append]
      rfl
    have hsub : (s.guard.cleared.map GuardEntry.map).Sublist s.guard.maps :=
      s.guard.cleared_sublist.map _
    have hknown : ∀ other ∈ (s.ask attrs).known, other ∈ s.known := by
      intro other hmem
      rw [known, hmaps] at hmem
      rcases List.mem_append.mp hmem with hmem | hmem
      · exact held_known hmem
      · rcases List.mem_append.mp hmem with hmem | hmem
        · exact List.mem_append_right _ (hsub.subset hmem)
        · exact List.mem_singleton.mp hmem ▸ held_known hm
    refine ⟨fun other hmem => h.old other (hknown other hmem), h.apart.mono hknown,
      fun entry he => ?_, fun other hmem => ?_, ?_,
      fun entry he => ((h.faithful.suspicious (held_known hm)).2 entry he).2⟩
    · rw [Holding.ask, hnew] at he
      rcases List.mem_append.mp he with he | he
      · exact h.alive entry (s.guard.cleared_sublist.subset he)
      · rw [List.mem_singleton.mp he]
        exact iff_of_true rfl hm
    · rw [hmaps] at hmem
      rcases List.mem_append.mp hmem with hmem | hmem
      · exact h.filled other (hsub.subset hmem)
      · exact List.mem_singleton.mp hmem ▸ hfields
    · rw [hmaps]
      refine List.nodup_append.mpr ⟨hsub.nodup h.nodup, List.pairwise_singleton _ _, ?_⟩
      rintro other hother new hmem rfl
      obtain ⟨entry, he, hmap⟩ := List.mem_map.mp hother
      have hkept := s.guard.cleared_sublist.subset he
      have hof := (h.isOf_iff hm hkept).mpr (hmap.trans (List.mem_singleton.mp hmem))
      exact absurd hof (Bool.eq_false_iff.mp (hnone entry hkept))

/-- Requests keep everything, one after the other. -/
theorem askAll (h : s.Valid) {sources : List Attrs} (hm : ∀ attrs ∈ sources, attrs ∈ s.held) :
    (s.askAll sources).Valid := by
  induction sources generalizing s with
  | nil => exact h
  | cons attrs rest ih =>
    rw [askAll_cons]
    exact ih (h.ask (hm attrs List.mem_cons_self)) fun other hmem =>
      hm other (List.mem_cons_of_mem _ hmem)

/-- Both kinds of requests keep everything. -/
theorem request (h : s.Valid) (hs : Request s s') : s'.Valid := by
  cases hs with
  | suspicious hm => exact h.ask hm
  | collect hm => exact h.askAll hm

/-- Every step keeps everything. -/
theorem step (h : s.Valid) (hs : Step s s') : s'.Valid := by
  cases hs with
  | @make fields attrs next hmake =>
    cases hmake
    exact h.make fields
  | clone hm => exact h.clone hm
  | drop hm => exact h.drop hm
  | request hs => exact h.request hs

/-- Every run keeps everything. -/
theorem run (h : s.Valid) (hr : Run s s') : s'.Valid := by
  induction hr with
  | refl => exact h
  | tail _ hs ih => exact ih.step hs

end Valid

/-! ### What stays -/

/-- A request changes nothing but the guard. -/
theorem Request.eq (hs : Request s s') : s' = { s with guard := s'.guard } := by
  cases hs <;> rfl

/-- Maps that are older than a step were held before it. -/
theorem Step.held (hs : Step s s') (hm : attrs ∈ s'.held) (hold : attrs.id < s.next) :
    attrs ∈ s.held := by
  cases hs with
  | make hmake =>
    cases hmake
    rcases List.mem_cons.mp hm with rfl | hm
    · exact absurd hold (Nat.lt_irrefl _)
    · exact hm
  | clone hheld =>
    rcases List.mem_cons.mp hm with rfl | hm
    · exact hheld
    · exact hm
  | drop => exact List.mem_of_mem_erase hm
  | request hs =>
    rw [hs.eq] at hm
    exact hm

/-- The next token never gets smaller. -/
theorem Step.next_le (hs : Step s s') : s.next ≤ s'.next := by
  cases hs with
  | make hmake =>
    cases hmake
    exact Nat.le_succ _
  | clone | drop => exact Nat.le_refl _
  | request hs => exact Nat.le_of_eq (congrArg Holding.next hs.eq).symm

/-- The next token never gets smaller over a run. -/
theorem Run.next_le (hr : Run s s') : s.next ≤ s'.next := by
  induction hr with
  | refl => exact Nat.le_refl _
  | tail _ hs ih => exact Nat.le_trans ih hs.next_le

namespace Valid

variable {entry : GuardEntry}

/-- A request drops no entry of a map that somebody holds. -/
theorem mem_ask (h : s.Valid) (he : entry ∈ s.guard.entries) (hm : entry.map ∈ s.held) :
    entry ∈ (s.ask attrs).guard.entries := by
  rw [Holding.ask]
  obtain hsame | ⟨-, -, hnew⟩ := s.guard.kept_or_added attrs
  · rwa [hsame]
  · rw [hnew]
    exact List.mem_append_left _ (Guard.mem_cleared he ((h.alive entry he).mpr hm))

/-- No series of requests drops an entry of a map that somebody holds. -/
theorem mem_askAll (h : s.Valid) {sources : List Attrs}
    (hheld : ∀ attrs ∈ sources, attrs ∈ s.held) (he : entry ∈ s.guard.entries)
    (hm : entry.map ∈ s.held) : entry ∈ (s.askAll sources).guard.entries := by
  induction sources generalizing s with
  | nil => exact he
  | cons attrs rest ih =>
    rw [askAll_cons]
    exact ih (h.ask (hheld attrs List.mem_cons_self))
      (fun other hmem => hheld other (List.mem_cons_of_mem _ hmem)) (h.mem_ask he hm) hm

/-- An entry outlasts a step after which somebody holds its map. -/
theorem mem_step (h : s.Valid) (hs : Step s s') (he : entry ∈ s.guard.entries)
    (hm : entry.map ∈ s'.held) : entry ∈ s'.guard.entries := by
  have hbefore := hs.held hm (h.old _ (entry_known he))
  cases hs with
  | make => exact he
  | clone => exact he
  | @drop attrs hheld =>
    rw [Holding.drop]
    dsimp only
    split
    · exact he
    · rename_i hgone
      refine List.mem_map.mpr ⟨entry, he, if_neg fun hid => hgone ?_⟩
      have heq := h.apart _ _ (entry_known he) (held_known hheld) hid
      exact heq ▸ hm
  | request hs =>
    cases hs with
    | suspicious => exact h.mem_ask he hbefore
    | collect hheld => exact h.mem_askAll hheld he hbefore

/-- An entry whose map somebody holds is never dropped. No token is used twice, so who holds the map
at the end has held it all along. -/
theorem mem_run (h : s.Valid) (hr : Run s s') (he : entry ∈ s.guard.entries)
    (hm : entry.map ∈ s'.held) : entry ∈ s'.guard.entries := by
  have hold := h.old _ (entry_known he)
  induction hr with
  | refl => exact he
  | @tail before after hr hs ih =>
    have hbefore := hs.held hm (Nat.lt_of_lt_of_le hold (Run.next_le hr))
    exact (h.run hr).mem_step hs (ih hbefore) hm

/-- After a request that changed what is kept, at most as many scans are kept as fit, or somebody
holds all of their maps. -/
theorem trim (h : s.Valid) (hs : Request s s') (hne : s'.guard ≠ s.guard) :
    s'.guard.cached ≤ Guard.threshold ∨ ∀ entry ∈ s'.guard.entries, entry.map ∈ s'.held := by
  have htrim : s'.guard.Trim := by
    cases hs with
    | suspicious => exact Guard.trim_suspicious hne
    | collect => exact Guard.trim_collect hne
  exact htrim.imp_right fun hall entry he =>
    ((h.request hs).alive entry he).mp (hall entry he)

end Valid

end Holding

end RichDoc
