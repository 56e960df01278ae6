import RichDoc.Proofs.Build.Simulation
import RichDoc.Proofs.Dom.Outline
import RichDoc.Proofs.Dom.Runs

/-!
# Building above anything

New cells come after all that are there, and building reads and writes new cells only. So it makes
the same cells in every store, moved to where the store ended, even in one whose links are no
forest.
-/

namespace RichDoc

/-! ### Moved cells -/

/-- A link with its node moved. -/
def Link.moved (base : Nat) (link : Link) : Link := link.map (base + ·)

/-- A cell with all of its links moved. -/
def Cell.moved (base : Nat) (cell : Cell) : Cell where
  data := cell.data
  parent := Link.moved base cell.parent
  firstChild := Link.moved base cell.firstChild
  lastChild := Link.moved base cell.lastChild
  prevSibling := Link.moved base cell.prevSibling
  nextSibling := Link.moved base cell.nextSibling

mutual

/-- A tree with its nodes moved. -/
def Tree.moved (base : Nat) : Tree → Tree
  | .node id data children => .node (base + id) data (movedAll base children)
  | .absent link => .absent (Link.moved base link)

/-- Trees with their nodes moved. -/
def Tree.movedAll (base : Nat) : List Tree → List Tree
  | [] => []
  | tree :: rest => moved base tree :: movedAll base rest

end

/-- Trees are moved one by one. -/
theorem Tree.movedAll_eq_map (base : Nat) (trees : List Tree) :
    movedAll base trees = trees.map (moved base) := by
  induction trees with
  | nil => rw [movedAll, List.map_nil]
  | cons tree rest ih => rw [movedAll, ih, List.map_cons]

mutual

/-- An outline does not tell where the nodes are. -/
theorem Tree.outline_moved (base : Nat) : (tree : Tree) →
    (tree.moved base).outline none = tree.outline none
  | .node id data children => by
    rw [moved, outline, outline, outlines_movedAll base children]
    rfl
  | .absent _ => by rw [moved, outline, outline]

/-- The outlines of moved trees are those of the trees. -/
theorem Tree.outlines_movedAll (base : Nat) : (trees : List Tree) →
    outlines none (movedAll base trees) = outlines none trees
  | [] => rfl
  | tree :: rest => by
    rw [movedAll, outlines, outlines, outline_moved base tree, outlines_movedAll base rest]

end

namespace Link

/-- No node stays no node. -/
@[simp] theorem moved_none (base : Nat) : Link.moved base none = none := rfl

/-- A node is moved by as many places as there are cells below. -/
@[simp] theorem moved_some (base : Nat) (id : NodeId) :
    Link.moved base (some id) = some (base + id) := rfl

/-- A moved link leads to a node if the link did. -/
@[simp] theorem isSome_moved (base : Nat) (link : Link) :
    (Link.moved base link).isSome = link.isSome := Option.isSome_map

/-- A moved link leads to no node if the link did not. -/
@[simp] theorem isNone_moved (base : Nat) (link : Link) :
    (Link.moved base link).isNone = link.isNone := Option.isNone_map

/-- Moved links are equal for equal links only. -/
theorem moved_injective (base : Nat) : Function.Injective (Link.moved base) :=
  Option.map_injective fun _ _ => Nat.add_left_cancel

end Link

namespace Dom

/-- The cells of one store stand above the others in another one. -/
structure Above (base : Nat) (part dom : Dom) : Prop where
  size_eq : dom.size = base + part.size
  get?_eq : ∀ link : Link, dom.get? (Link.moved base link) = (part.get? link).map (Cell.moved base)

namespace Above

variable {base : Nat} {part dom : Dom}

/-- At first there is nothing above. -/
theorem start (dom : Dom) : Above dom.size ⟨#[]⟩ dom where
  size_eq := rfl
  get?_eq link := by
    cases link with
    | none => rfl
    | some id => exact Array.getElem?_eq_none (Nat.le_add_right _ _)

/-- What is read off a cell is moved. -/
theorem bind_eq (h : Above base part dom) (read : Cell → Link)
    (hr : ∀ cell, read (cell.moved base) = Link.moved base (read cell)) (link : Link) :
    (dom.get? (Link.moved base link)).bind read = Link.moved base ((part.get? link).bind read) := by
  rw [h.get?_eq]
  cases part.get? link with
  | none => rfl
  | some cell => exact hr cell

/-- The parent of a moved node is the moved parent. -/
theorem parent_eq (h : Above base part dom) (link : Link) :
    dom.parent (Link.moved base link) = Link.moved base (part.parent link) :=
  h.bind_eq (·.parent) (fun _ => rfl) link

/-- The last child of a moved node is the moved last child. -/
theorem lastChild_eq (h : Above base part dom) (link : Link) :
    dom.lastChild (Link.moved base link) = Link.moved base (part.lastChild link) :=
  h.bind_eq (·.lastChild) (fun _ => rfl) link

/-! ### Operations -/

/-- A cell is changed in both. -/
theorem modify (h : Above base part dom) (link : Link) {change change' : Cell → Cell}
    (hc : ∀ cell, change' (cell.moved base) = (change cell).moved base) :
    Above base (part.modify link change) (dom.modify (Link.moved base link) change') where
  size_eq := by rw [size_modify, size_modify, h.size_eq]
  get?_eq other := by
    rw [get?_modify, get?_modify, h.get?_eq]
    by_cases hlink : other = link
    · rw [if_pos (congrArg _ hlink), if_pos hlink]
      cases part.get? other with
      | none => rfl
      | some cell => exact congrArg some (hc cell)
    · rw [if_neg fun he => hlink (Link.moved_injective base he), if_neg hlink]

/-- A node that is created in both stores is the same one, moved. -/
theorem create (h : Above base part dom) (data : NodeData) :
    Above base (part.create data).2 (dom.create data).2 where
  size_eq := by rw [size_create, size_create, h.size_eq, Nat.add_assoc]
  get?_eq link := by
    cases link with
    | none => rfl
    | some id =>
      have hget := h.get?_eq (some id)
      rw [Link.moved_some] at hget ⊢
      rw [get?_create, get?_create, h.size_eq, hget]
      by_cases hid : id = part.size
      · rw [if_pos (congrArg _ hid), if_pos hid]
        rfl
      · rw [if_neg fun he => hid (Nat.add_left_cancel he), if_neg hid]

/-- An attribute is set in both stores. -/
theorem setAttribute (h : Above base part dom) (link : Link) (name : QualName) (value : String) :
    Above base (part.setAttribute link name value)
      (dom.setAttribute (Link.moved base link) name value) := by
  refine h.modify link fun cell => ?_
  obtain ⟨data, _, _, _, _, _⟩ := cell
  cases data <;> rfl

/-- A node is unlinked in both stores. -/
theorem detach (h : Above base part dom) (link : Link) :
    Above base (part.detach link) (dom.detach (Link.moved base link)) := by
  rw [Dom.detach, Dom.detach, h.get?_eq]
  cases part.get? link with
  | none => exact h
  | some cell =>
    have hprev : (Cell.moved base cell).prevSibling.isSome = cell.prevSibling.isSome :=
      Link.isSome_moved ..
    have hnext : (Cell.moved base cell).nextSibling.isSome = cell.nextSibling.isSome :=
      Link.isSome_moved ..
    simp only [Option.map_some, hprev, hnext]
    refine modify ?_ link fun _ => rfl
    split <;> split <;> refine modify (h.modify _ ?_) _ ?_ <;> exact fun _ => rfl

/-- A node is appended in both stores. -/
theorem append (h : Above base part dom) (parent child : Link) :
    Above base (part.append parent child)
      (dom.append (Link.moved base parent) (Link.moved base child)) := by
  have hdetached : Above base (part.detachAttached child)
      (dom.detachAttached (Link.moved base child)) := by
    rw [detachAttached, detachAttached, h.parent_eq, Link.isSome_moved]
    split
    · exact h.detach child
    · exact h
  rw [Dom.append, Dom.append, hdetached.lastChild_eq]
  refine modify (modify (hdetached.modify child ?_) _ ?_) parent fun cell => ?_
  · exact fun _ => rfl
  · exact fun _ => rfl
  · have hfirst : (Cell.moved base cell).firstChild.isNone = cell.firstChild.isNone :=
      Link.isNone_moved ..
    rw [hfirst]
    split <;> rfl

/-! ### Reading a tree back -/

/-- The siblings behind a moved node are the moved siblings. -/
theorem chain_eq (h : Above base part dom) (steps : Nat) (link : Link) :
    dom.chain steps (Link.moved base link) = (part.chain steps link).map (base + ·) := by
  induction steps generalizing link with
  | zero => rfl
  | succ steps ih =>
    cases link with
    | none => rfl
    | some id =>
      have hnext := h.bind_eq (·.nextSibling) (fun _ => rfl) (some id)
      rw [Link.moved_some] at hnext ⊢
      rw [chain, chain, hnext, ih, List.map_cons]

/-- In a forest more steps lead no further. -/
theorem children_eq (h : Above base part dom) (hw : part.WellFormed) (id : NodeId) :
    dom.children (some (base + id)) = (part.children (some id)).map (base + ·) := by
  have hfirst := h.bind_eq (·.firstChild) (fun _ => rfl) (some id)
  have hkids := hw.isChildren id
  have hle := length_le_size hkids.nodup fun _ hk => hkids.linked.lt_size hk
  rw [Link.moved_some] at hfirst
  rw [children, hfirst, h.chain_eq, hkids.first, hkids.linked.chain_eq]
  rw [h.size_eq]
  exact Nat.le_trans hle (by omega)

/-- The tree below a moved node is the moved tree. -/
theorem treeTo_eq (h : Above base part dom) (hw : part.WellFormed) (depth : Nat) (link : Link) :
    dom.treeTo depth (Link.moved base link) = (part.treeTo depth link).moved base := by
  induction depth generalizing link with
  | zero => rw [treeTo, treeTo, Tree.moved]
  | succ depth ih =>
    cases link with
    | none =>
      have hnone : ∀ other : Dom, other.treeTo (depth + 1) none = .absent none := fun other => by
        simp only [treeTo]
      rw [Link.moved_none, hnone, hnone, Tree.moved, Link.moved_none]
    | some id =>
      have hget := h.get?_eq (some id)
      rw [Link.moved_some] at hget ⊢
      cases hcell : part.get? (some id) with
      | none =>
        rw [hcell, Option.map_none] at hget
        simp only [treeTo, hget, hcell, Tree.moved, Link.moved_some]
      | some cell =>
        rw [hcell, Option.map_some] at hget
        simp only [treeTo, hget, hcell, Tree.moved, Tree.movedAll_eq_map, h.children_eq hw id,
          List.map_map]
        exact congrArg _ (List.map_congr_left fun child _ => ih (some child))

/-- A tree that stands above a store is the one that it is by itself. -/
theorem tree_eq (h : Above base part dom) (hw : part.WellFormed) {id : NodeId}
    (hid : id < part.size) :
    dom.tree (some (base + id)) = (part.tree (some id)).moved base := by
  have hdeep : part.treeTo (dom.size + 1) (some id) = part.tree (some id) := by
    have hshows : part.Shows id (part.treeTo (dom.size + 1) (some id)) := by
      have hroot : ([id] : List NodeId).Nodup := List.nodup_singleton id
      refine hw.treeTo_shows hroot (List.forall_mem_singleton.mpr hid) (List.forall_mem_nil _) ?_
      rw [h.size_eq, List.length_nil]
      omega
    exact hw.shows_unique id _ _ hshows (hw.tree_shows hid)
  rw [← hdeep]
  exact h.treeTo_eq hw _ (some id)

end Above

/-- What is built in a new store is built above everything in another one. -/
def above (base : Nat) : Pairing Dom Dom where
  states := Above base
  nodes _ _ x y := y = base + x
  createElement tag h := ⟨⟨h.create _, id⟩, h.size_eq⟩
  createText text h := ⟨⟨h.create _, id⟩, h.size_eq⟩
  createFragment h := ⟨⟨h.create _, id⟩, h.size_eq⟩
  setAttribute key value h hn := by
    obtain rfl := hn
    exact ⟨h.setAttribute _ _ value, id⟩
  appendChild h hn hn' := by
    obtain rfl := hn
    obtain rfl := hn'
    exact ⟨h.append _ _, id⟩

/-- A store without nodes is a forest. -/
theorem wellFormed_nothing : WellFormed ⟨#[]⟩ where
  children id hid := absurd hid (Nat.not_lt_zero id)
  parents id p hp := by cases hp
  alone cell hc := absurd hc (Array.not_mem_empty cell)
  acyclic := acyclic_of_lt fun id p hp => by cases hp

end Dom

end RichDoc
