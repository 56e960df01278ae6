import RichDoc.Proofs.Serializer.Single

/-!
# The first node that cannot be built

Not every node of a fragment is built: content is reached only where the template of its parent
leaves a hole. Under the lenient policy no mark ends the work, so serializing fails if and only if a
reached node cannot be built by itself, and it fails as the first such node in document order does.
What stands below a node without a hole may be anything.
-/

namespace RichDoc

/-! ### Nodes by themselves -/

/-- What rendering the description of a node gives. It is the same wherever it is built, so here it
is built in a script of its own. -/
def Node.rendering (node : Node) (template : NodeTemplate) : Except Error (Rendered Nat) :=
  (((template node).renderGuarded [node.attrs] : Guarding Script (Rendered Nat))
    ⟨.empty, .empty⟩).1

/-- Why a node cannot be built, whatever its content is. -/
inductive Node.Fault (table : TemplateTable) (node : Node) : Error → Prop where
  | missing : table.node? node.typeName = none →
      Fault table node (.missingTemplate node.typeName)
  | unrendered {template error} : table.node? node.typeName = some template →
      node.rendering template = .error error → Fault table node error
  | leafHole {template root hole} : table.node? node.typeName = some template →
      node.rendering template = .ok ⟨root, some hole⟩ → node.isLeaf = true →
      Fault table node (.leafContentHole node.typeName)

/-- The description of a node is rendered and has a hole. -/
def Node.LeavesHole (table : TemplateTable) (node : Node) : Prop :=
  ∃ template root hole, table.node? node.typeName = some template ∧
    node.rendering template = .ok ⟨root, some hole⟩

/-- The description of a node is rendered and has no hole. -/
def Node.LeavesNoHole (table : TemplateTable) (node : Node) : Prop :=
  ∃ template root, table.node? node.typeName = some template ∧
    node.rendering template = .ok ⟨root, none⟩

namespace Node.Fault

variable {table : TemplateTable} {node : Node} {error other : Error}

/-- A node has one fault at most. -/
theorem unique (h : node.Fault table error) (h' : node.Fault table other) : error = other := by
  cases h with
  | missing hnone =>
    cases h' with
    | missing => rfl
    | unrendered hsome => cases hnone.symm.trans hsome
    | leafHole hsome => cases hnone.symm.trans hsome
  | unrendered hsome hr =>
    cases h' with
    | missing hnone => cases hnone.symm.trans hsome
    | unrendered hsome' hr' =>
      cases hsome.symm.trans hsome'
      cases hr.symm.trans hr'
      rfl
    | leafHole hsome' hr' =>
      cases hsome.symm.trans hsome'
      cases hr.symm.trans hr'
  | leafHole hsome hr =>
    cases h' with
    | missing hnone => cases hnone.symm.trans hsome
    | unrendered hsome' hr' =>
      cases hsome.symm.trans hsome'
      cases hr.symm.trans hr'
    | leafHole => rfl

/-- A faulty node that leaves a hole is a leaf. -/
theorem isLeaf (h : node.Fault table error) (hh : node.LeavesHole table) : node.isLeaf = true := by
  obtain ⟨template, root, hole, hsome', hr'⟩ := hh
  cases h with
  | missing hnone => cases hnone.symm.trans hsome'
  | unrendered hsome hr =>
    cases hsome.symm.trans hsome'
    cases hr.symm.trans hr'
  | leafHole _ _ hleaf => exact hleaf

/-- A faulty node is not rendered without a hole. -/
theorem not_leavesNoHole (h : node.Fault table error) : ¬node.LeavesNoHole table := by
  rintro ⟨template, root, hsome', hr'⟩
  cases h with
  | missing hnone => cases hnone.symm.trans hsome'
  | unrendered hsome hr =>
    cases hsome.symm.trans hsome'
    cases hr.symm.trans hr'
  | leafHole hsome hr _ =>
    cases hsome.symm.trans hsome'
    cases hr.symm.trans hr'

end Node.Fault

/-- Content goes into a hole, or there is none. -/
theorem Node.LeavesHole.not_leavesNoHole {table : TemplateTable} {node : Node}
    (h : node.LeavesHole table) : ¬node.LeavesNoHole table := by
  obtain ⟨template, root, hole, hsome, hr⟩ := h
  rintro ⟨template', root', hsome', hr'⟩
  cases hsome.symm.trans hsome'
  cases hr.symm.trans hr'

/-! ### Places in document order -/

/-- A node is reached at a place, which is told by the positions on the way down: it stands in the
fragment, or in the content of a reached node that is no leaf and leaves a hole. -/
inductive Reached (table : TemplateTable) (fragment : Fragment) : List Nat → Node → Prop where
  | top {i node} : fragment[i]? = some node → Reached table fragment [i] node
  | content {path node i child} : Reached table fragment path node → node.LeavesHole table →
      node.isLeaf = false → node.content[i]? = some child →
      Reached table fragment (path ++ [i]) child

/-- A place is another one or comes before it in document order: it is above it, or further to the
front where the ways down part. -/
def NotBehind : List Nat → List Nat → Prop
  | [], _ => True
  | _ :: _, [] => False
  | i :: path, j :: other => i < j ∨ i = j ∧ NotBehind path other

theorem NotBehind.antisymm {path other : List Nat} (h : NotBehind path other)
    (h' : NotBehind other path) : path = other := by
  induction path generalizing other with
  | nil =>
    cases other with
    | nil => rfl
    | cons j other => exact h'.elim
  | cons i path ih =>
    cases other with
    | nil => exact h.elim
    | cons j other =>
      rcases h with hlt | ⟨rfl, hrest⟩
      · rcases h' with hlt' | ⟨rfl, -⟩ <;> omega
      · rcases h' with hlt' | ⟨-, hrest'⟩
        · omega
        · rw [ih hrest hrest']

/-- At a place a node is reached that cannot be built. -/
def FaultAt (table : TemplateTable) (fragment : Fragment) (path : List Nat) (error : Error) :
    Prop :=
  ∃ node, Reached table fragment path node ∧ node.Fault table error

/-- The fault at the first place that has one. -/
def FirstFault (table : TemplateTable) (fragment : Fragment) (error : Error) : Prop :=
  ∃ path, FaultAt table fragment path error ∧
    ∀ path' other, FaultAt table fragment path' other → NotBehind path path'

section

variable {table : TemplateTable} {fragment : Fragment} {path : List Nat} {i : Nat} {node x : Node}
  {error other : Error}

/-- What is reached from the content of a node is reached from above it. -/
theorem Reached.of_content (hi : fragment[i]? = some node) (hh : node.LeavesHole table)
    (hl : node.isLeaf = false) (h : Reached table node.content path x) :
    Reached table fragment (i :: path) x := by
  induction h with
  | top hj => exact .content (.top hi) hh hl hj
  | content _ hh' hl' hj ih => exact .content ih hh' hl' hj

/-- The first step down leads to a node of the fragment, and the others go on in its content. -/
theorem Reached.exists_step (h : Reached table fragment path x) :
    ∃ i rest node, path = i :: rest ∧ fragment[i]? = some node ∧
      (rest = [] ∧ x = node ∨
        node.LeavesHole table ∧ node.isLeaf = false ∧ Reached table node.content rest x) := by
  induction h with
  | @top i node hi => exact ⟨i, [], node, rfl, hi, Or.inl ⟨rfl, rfl⟩⟩
  | @content path inner j child _ hh hl hj ih =>
    obtain ⟨i, rest, node, rfl, hi, ⟨rfl, rfl⟩ | ⟨hh', hl', hr⟩⟩ := ih
    · exact ⟨i, [j], inner, rfl, hi, Or.inr ⟨hh, hl, .top hj⟩⟩
    · exact ⟨i, rest ++ [j], node, rfl, hi, Or.inr ⟨hh', hl', .content hr hh hl hj⟩⟩

theorem not_faultAt_nil : ¬FaultAt table fragment [] error := by
  rintro ⟨x, hx, -⟩
  obtain ⟨i, rest, node, hpath, -⟩ := hx.exists_step
  cases hpath

/-- A fault is one of a node of the fragment, or one in the content of such a node. -/
theorem faultAt_cons : FaultAt table fragment (i :: path) error ↔
    ∃ node, fragment[i]? = some node ∧
      (path = [] ∧ node.Fault table error ∨
        node.LeavesHole table ∧ node.isLeaf = false ∧
          FaultAt table node.content path error) := by
  constructor
  · rintro ⟨x, hx, hfault⟩
    obtain ⟨j, rest, node, hpath, hi, hcase⟩ := hx.exists_step
    cases hpath
    refine ⟨node, hi, hcase.imp ?_ ?_⟩
    · rintro ⟨hnil, rfl⟩
      exact ⟨hnil, hfault⟩
    · rintro ⟨hh, hl, hr⟩
      exact ⟨hh, hl, x, hr, hfault⟩
  · rintro ⟨node, hi, ⟨rfl, hfault⟩ | ⟨hh, hl, x, hx, hfault⟩⟩
    · exact ⟨node, .top hi, hfault⟩
    · exact ⟨x, .of_content hi hh hl hx, hfault⟩

/-- A place has one fault at most. -/
theorem FaultAt.unique (h : FaultAt table fragment path error)
    (h' : FaultAt table fragment path other) : error = other := by
  induction path generalizing fragment with
  | nil => exact absurd h not_faultAt_nil
  | cons i path ih =>
    obtain ⟨node, hi, hcase⟩ := faultAt_cons.mp h
    obtain ⟨node', hi', hcase'⟩ := faultAt_cons.mp h'
    cases hi.symm.trans hi'
    rcases hcase with ⟨rfl, hfault⟩ | ⟨-, -, hin⟩
    · rcases hcase' with ⟨-, hfault'⟩ | ⟨-, -, hin'⟩
      · exact hfault.unique hfault'
      · exact absurd hin' not_faultAt_nil
    · rcases hcase' with ⟨rfl, -⟩ | ⟨-, -, hin'⟩
      · exact absurd hin not_faultAt_nil
      · exact ih hin hin'

/-- There is one first fault. -/
theorem FirstFault.unique (h : FirstFault table fragment error)
    (h' : FirstFault table fragment other) : error = other := by
  obtain ⟨path, hat, hfirst⟩ := h
  obtain ⟨path', hat', hfirst'⟩ := h'
  obtain rfl : path = path' := (hfirst path' other hat').antisymm (hfirst' path error hat)
  exact hat.unique hat'

/-! ### The first fault of siblings -/

/-- Work over nodes succeeds if none of those that it reaches has a fault, and otherwise it fails
with the first fault. -/
def Decided {α : Type} (table : TemplateTable) (fragment : Fragment) : Except Error α → Prop
  | .ok _ => ∀ path error, ¬FaultAt table fragment path error
  | .error error => FirstFault table fragment error

theorem faultAt_zero {rest : Fragment} :
    FaultAt table (node :: rest) (0 :: path) error ↔ FaultAt table [node] (0 :: path) error := by
  rw [faultAt_cons, faultAt_cons, List.getElem?_cons_zero, List.getElem?_cons_zero]

theorem faultAt_succ {rest : Fragment} :
    FaultAt table (node :: rest) ((i + 1) :: path) error ↔
      FaultAt table rest (i :: path) error := by
  rw [faultAt_cons, faultAt_cons, List.getElem?_cons_succ]

/-- A single node stands at the first position. -/
theorem FaultAt.exists_eq_zero (h : FaultAt table [node] path error) :
    ∃ rest, path = 0 :: rest := by
  cases path with
  | nil => exact absurd h not_faultAt_nil
  | cons i rest =>
    obtain ⟨x, hi, -⟩ := faultAt_cons.mp h
    obtain ⟨hlt, -⟩ := List.getElem?_eq_some_iff.mp hi
    obtain rfl : i = 0 := Nat.lt_one_iff.mp hlt
    exact ⟨rest, rfl⟩

/-- Faults of a first node come before those of the others. -/
theorem FirstFault.cons_left {rest : Fragment} (h : FirstFault table [node] error) :
    FirstFault table (node :: rest) error := by
  obtain ⟨path, hat, hfirst⟩ := h
  obtain ⟨below, rfl⟩ := hat.exists_eq_zero
  refine ⟨0 :: below, faultAt_zero.mpr hat, fun path' other hat' => ?_⟩
  cases path' with
  | nil => exact absurd hat' not_faultAt_nil
  | cons i path' =>
    cases i with
    | zero => exact hfirst _ other (faultAt_zero.mp hat')
    | succ i => exact Or.inl (Nat.succ_pos i)

/-- Where the first node has no fault, the first fault is one of the others. -/
theorem FirstFault.cons_right {rest : Fragment}
    (hnone : ∀ path error, ¬FaultAt table [node] path error)
    (h : FirstFault table rest error) : FirstFault table (node :: rest) error := by
  obtain ⟨path, hat, hfirst⟩ := h
  cases path with
  | nil => exact absurd hat not_faultAt_nil
  | cons i path =>
    refine ⟨(i + 1) :: path, faultAt_succ.mpr hat, fun path' other hat' => ?_⟩
    cases path' with
    | nil => exact absurd hat' not_faultAt_nil
    | cons j path' =>
      cases j with
      | zero => exact absurd (faultAt_zero.mp hat') (hnone _ _)
      | succ j =>
        have hle := hfirst _ other (faultAt_succ.mp hat')
        exact hle.imp Nat.succ_lt_succ fun h => ⟨congrArg _ h.1, h.2⟩

/-- Work on a first node and then on the others is decided in this order. -/
theorem Decided.cons {σ α β : Type} {rest : Fragment} {work : Building σ α}
    {next : α → Building σ β} {s : σ} (h : Decided table [node] (work s).1)
    (h' : ∀ a t, work s = (.ok a, t) → Decided table rest (next a t).1) :
    Decided table (node :: rest) ((work >>= next) s).1 := by
  rcases hw : work s with ⟨error | a, t⟩
  · rw [hw] at h
    rw [Building.bind_apply_error hw]
    exact FirstFault.cons_left h
  · rw [hw] at h
    have hrest := h' a t hw
    rw [Building.bind_apply_ok hw]
    rcases hr : (next a t).1 with error | b
    · rw [hr] at hrest
      exact FirstFault.cons_right h hrest
    · rw [hr] at hrest
      intro path error hat
      cases path with
      | nil => exact not_faultAt_nil hat
      | cons i path =>
        cases i with
        | zero => exact h _ error (faultAt_zero.mp hat)
        | succ i => exact hrest _ error (faultAt_succ.mp hat)

/-! ### The first fault of a node -/

theorem faultAt_single : FaultAt table [node] (0 :: path) error ↔
    path = [] ∧ node.Fault table error ∨
      node.LeavesHole table ∧ node.isLeaf = false ∧ FaultAt table node.content path error := by
  rw [faultAt_cons, List.getElem?_cons_zero]
  exact ⟨fun ⟨_, he, h⟩ => Option.some.inj he ▸ h, fun h => ⟨node, rfl, h⟩⟩

/-- A node's own fault comes before those below it. -/
theorem Node.Fault.firstFault (h : node.Fault table error) : FirstFault table [node] error := by
  refine ⟨[0], faultAt_single.mpr (Or.inl ⟨rfl, h⟩), fun path other hat => ?_⟩
  obtain ⟨rest, rfl⟩ := hat.exists_eq_zero
  exact Or.inr ⟨rfl, trivial⟩

/-- Nothing below a node without a hole is reached. -/
theorem Node.LeavesNoHole.not_faultAt (h : node.LeavesNoHole table) (path : List Nat)
    (error : Error) : ¬FaultAt table [node] path error := by
  intro hat
  obtain ⟨rest, rfl⟩ := hat.exists_eq_zero
  rcases faultAt_single.mp hat with ⟨-, hfault⟩ | ⟨hh, -, -⟩
  · exact hfault.not_leavesNoHole h
  · exact hh.not_leavesNoHole h

/-- A node that takes content has the faults of its content. -/
theorem Decided.of_content {α β : Type} {result : Except Error α} {result' : Except Error β}
    (hh : node.LeavesHole table) (hl : node.isLeaf = false)
    (h : Decided table node.content result)
    (herror : ∀ error, result = .error error → result' = .error error)
    (hok : ∀ a, result = .ok a → ∃ b, result' = .ok b) : Decided table [node] result' := by
  have hself : ∀ error, ¬node.Fault table error := by
    intro error hfault
    rw [hfault.isLeaf hh] at hl
    cases hl
  have hbelow : ∀ rest error, FaultAt table [node] (0 :: rest) error ↔
      FaultAt table node.content rest error := by
    intro rest error
    rw [faultAt_single]
    exact ⟨fun h => h.elim (fun h => absurd h.2 (hself error)) fun h => h.2.2,
      fun h => Or.inr ⟨hh, hl, h⟩⟩
  cases result with
  | error error =>
    obtain ⟨path, hat, hfirst⟩ := h
    rw [herror error rfl]
    refine ⟨0 :: path, (hbelow path error).mpr hat, fun path' other hat' => ?_⟩
    obtain ⟨rest, rfl⟩ := hat'.exists_eq_zero
    exact Or.inr ⟨rfl, hfirst rest other ((hbelow rest other).mp hat')⟩
  | ok a =>
    obtain ⟨b, hb⟩ := hok a rfl
    rw [hb]
    intro path error hat
    obtain ⟨rest, rfl⟩ := hat.exists_eq_zero
    exact h rest error ((hbelow rest error).mp hat)

end

/-! ### The first fault of a run -/

section

variable {σ η : Type} [TreeBuilder σ η] {table : TemplateTable} {pool : Pool}

/-- A description comes to the same under every right guard, whatever was built before. -/
theorem Node.outcomes_rendering {node : Node} (template : NodeTemplate)
    (hm : pool.has node.attrs) {state : Guarded σ} (hg : state.guard.Faithful pool) :
    Outcomes (fun (first : Rendered Nat) (second : Rendered η) =>
        Option.Rel (fun _ _ => True) first.hole second.hole)
      (node.rendering template)
      (((template node).renderGuarded [node.attrs] : Guarding σ (Rendered η)) state).1 := by
  have hrun := Pairing.anything.renderGuarded (g := .faithful pool)
    (s := (⟨.empty, .empty⟩ : Guarded Script)) (t := state)
    ⟨trivial, Guard.Reachable.empty.faithful, hg⟩ (template node)
    (List.forall_mem_singleton.mpr hm)
  exact hrun.2.imp fun _ _ hr => hr.hole

/-- Siblings are built until the first fault. -/
theorem serializeNodes_decided {nodes : List Node} (hm : ∀ node ∈ nodes, node.Maps pool.has)
    (h : ∀ node ∈ nodes, ∀ state : Guarded σ, state.guard.Faithful pool →
      Decided table [node] (renderNode (η := η) table .lenient node state).1)
    (opened : OpenMarks η) {state : Guarded σ} (hg : state.guard.Faithful pool) :
    Decided table nodes (serializeNodes table .lenient opened nodes state).1 := by
  induction nodes generalizing opened state with
  | nil =>
    rw [serializeNodes]
    intro path error hat
    cases path with
    | nil => exact not_faultAt_nil hat
    | cons i path =>
      obtain ⟨node, hi, -⟩ := faultAt_cons.mp hat
      cases hi
  | cons node rest ih =>
    obtain ⟨hnode, hrest⟩ := List.forall_mem_cons.mp h
    obtain ⟨hmaps, hothers⟩ := List.forall_mem_cons.mp hm
    have hmarks : ∀ mark ∈ (agreeing table opened.marks node.marks).2.2, pool.has mark.attrs :=
      fun mark hmark => hmaps.marks (mem_of_mem_agreeing table hmark)
    have hopening : (openMarks table .lenient node (agreeing table opened.marks node.marks).2.2
        (closing (agreeing table opened.marks node.marks).1
          (agreeing table opened.marks node.marks).2.1 opened.top) :
        Guarding σ (OpenMarks η)).Surely pool :=
      surely_openMarks hmaps.attrs hmarks (Or.inl rfl) _
    obtain ⟨opened', inside, hopened, hg'⟩ := hopening state hg
    rw [serializeNodes]
    dsimp only
    rw [Building.bind_apply_ok hopened]
    refine (hnode inside hg').cons fun inner built hbuilt => ?_
    have hg'' : built.guard.Faithful pool :=
      Guarding.StaysFaithful.of_run (.renderNode table .lenient hmaps) hg' hbuilt
    have happended : (built.appended opened'.top inner).guard.Faithful pool := hg''
    rw [Building.bind_apply_ok (appendTo_apply _ _ _)]
    exact ih hothers hrest opened' happended

/-- A node is built until the first fault in it. -/
theorem renderNode_decided (node : Node) (hm : node.Maps pool.has) {state : Guarded σ}
    (hg : state.guard.Faithful pool) :
    Decided table [node] (renderNode (η := η) table .lenient node state).1 := by
  induction node using Node.induction_content generalizing state with
  | step node ih =>
    obtain ⟨type, attrs, content, marks, text⟩ := node
    rw [renderNode]
    cases hnode : table.node? type.name with
    | none => exact Node.Fault.firstFault (.missing hnode)
    | some template =>
      have hsame := Node.outcomes_rendering (η := η) template hm.attrs hg
      dsimp only at hsame ⊢
      rcases hmade : ((template ⟨type, attrs, content, marks, text⟩).renderGuarded [attrs] :
        Guarding σ (Rendered η)) state with ⟨result, made⟩
      rw [hmade] at hsame
      rcases hr : Node.rendering ⟨type, attrs, content, marks, text⟩ template with
        error | ⟨first, inside⟩
      · rw [hr] at hsame
        cases hsame
        rw [Building.bind_apply_error hmade]
        exact Node.Fault.firstFault (.unrendered hnode hr)
      · rw [hr] at hsame
        obtain ⟨⟨root, hole⟩, rfl, hrel⟩ : ∃ rendered, result = .ok rendered ∧
            Option.Rel (fun _ _ => True) inside rendered.hole := by
          cases hsame with
          | ok hrel => exact ⟨_, rfl, hrel⟩
        rw [Building.bind_apply_ok hmade]
        dsimp only at hrel ⊢
        cases hrel with
        | none => exact Node.LeavesNoHole.not_faultAt ⟨template, first, hnode, hr⟩
        | @some place hole _ =>
          dsimp only
          split
          · rename_i hleaf
            exact Node.Fault.firstFault (.leafHole hnode hr hleaf)
          · rename_i hleaf
            have hg' : made.guard.Faithful pool := by
              have hafter := (Pairing.anything.renderGuarded (g := .faithful pool) (s := state)
                (t := state) ⟨trivial, hg, hg⟩ (template ⟨type, attrs, content, marks, text⟩)
                (List.forall_mem_singleton.mpr hm.attrs)).1.states.2.1
              rwa [hmade] at hafter
            have hcontent : Decided table content
                (serializeNodes table .lenient ⟨[], hole⟩ content made).1 :=
              serializeNodes_decided (fun _ hchild => hm.content hchild)
                (fun child hchild _ hg => ih child hchild (hm.content hchild) hg) ⟨[], hole⟩ hg'
            refine .of_content ⟨template, first, place, hnode, hr⟩ (Bool.eq_false_iff.mpr hleaf)
              hcontent (fun error he => ?_) fun a ha => ⟨root, ?_⟩
            · rw [Building.bind_apply_error (Prod.ext he rfl)]
            · rw [Building.bind_apply_ok (Prod.ext ha rfl)]
              rfl

/-- A fragment is built until the first fault in it. -/
theorem serializeFragment_decided (table : TemplateTable) {fragment : Fragment}
    (hm : ∀ node ∈ fragment, node.Maps pool.has) (target : Option η) {state : Guarded σ}
    (hg : state.guard.Faithful pool) :
    Decided table fragment (serializeFragment table .lenient fragment target state).1 := by
  obtain ⟨container, start, hcontainer, hg'⟩ : ∃ container start,
      (containerOf target : Guarding σ η) state = (.ok container, start) ∧
        start.guard.Faithful pool := by
    cases target with
    | none => exact ⟨_, _, rfl, hg⟩
    | some target => exact ⟨target, state, rfl, hg⟩
  have hnodes : Decided table fragment
      (serializeNodes table .lenient (openedIn (σ := σ) container []) fragment start).1 :=
    serializeNodes_decided hm (fun node hnode _ hg => renderNode_decided node (hm node hnode) hg)
      _ hg'
  rw [serializeFragment_eq, Building.bind_apply_ok hcontainer]
  rcases hrun : (serializeNodes table .lenient (openedIn (σ := σ) container []) fragment :
    Guarding σ Unit) start with ⟨error | _, after⟩
  · rw [hrun] at hnodes
    rw [Building.bind_apply_error hrun]
    exact hnodes
  · rw [hrun] at hnodes
    rw [Building.bind_apply_ok hrun]
    exact hnodes

end

/-! ### What does not matter -/

/-- Two nodes that cannot be built for the same reason, or have no hole, or take content that is
alike item by item. Content that no hole takes may be anything. -/
inductive Node.Alike (table : TemplateTable) : Node → Node → Prop where
  | fault {node other error} : node.Fault table error → other.Fault table error →
      Alike table node other
  | closed {node other} : node.LeavesNoHole table → other.LeavesNoHole table →
      Alike table node other
  | opened {node other} : node.LeavesHole table → node.isLeaf = false →
      other.LeavesHole table → other.isLeaf = false →
      List.Forall₂ (Alike table) node.content other.content → Alike table node other

section

variable {table : TemplateTable} {fragment other : Fragment}

/-- Fragments whose nodes are alike have the same faults at the same places. -/
theorem faultAt_congr (h : List.Forall₂ (Node.Alike table) fragment other) (path : List Nat)
    (error : Error) : FaultAt table fragment path error ↔ FaultAt table other path error := by
  induction path generalizing fragment other with
  | nil => exact iff_of_false not_faultAt_nil not_faultAt_nil
  | cons i path ih =>
    induction h generalizing i with
    | nil => exact Iff.rfl
    | @cons node node' rest rest' hnode _ ihrest =>
      cases i with
      | succ i =>
        rw [faultAt_succ, faultAt_succ]
        exact ihrest i
      | zero =>
        rw [faultAt_zero, @faultAt_zero table path node']
        cases hnode with
        | @fault _ _ own hf hf' =>
          have hiff : ∀ {x : Node}, x.Fault table own →
              (FaultAt table [x] (0 :: path) error ↔ path = [] ∧ error = own) := by
            intro x hx
            rw [faultAt_single]
            constructor
            · rintro (⟨hnil, he⟩ | ⟨hh, hl, -⟩)
              · exact ⟨hnil, he.unique hx⟩
              · rw [hx.isLeaf hh] at hl
                cases hl
            · rintro ⟨hnil, rfl⟩
              exact Or.inl ⟨hnil, hx⟩
          rw [hiff hf, hiff hf']
        | closed hn hn' => exact iff_of_false (hn.not_faultAt _ _) (hn'.not_faultAt _ _)
        | opened hh hl hh' hl' hcontent =>
          have hiff : ∀ {x : Node}, x.LeavesHole table → x.isLeaf = false →
              (FaultAt table [x] (0 :: path) error ↔ FaultAt table x.content path error) := by
            intro x hx hleaf
            rw [faultAt_single]
            refine ⟨fun h => ?_, fun h => Or.inr ⟨hx, hleaf, h⟩⟩
            rcases h with ⟨-, hf⟩ | ⟨-, -, hin⟩
            · rw [hf.isLeaf hx] at hleaf
              cases hleaf
            · exact hin
          rw [hiff hh hl, hiff hh' hl', ih hcontent]

theorem firstFault_congr (h : List.Forall₂ (Node.Alike table) fragment other) (error : Error) :
    FirstFault table fragment error ↔ FirstFault table other error := by
  simp only [FirstFault, faultAt_congr h]

end

/-! ### Which failure is reported -/

variable {σ η : Type} [TreeBuilder σ η]

/-- Work that is decided by the faults of a fragment fails with the first of them. -/
theorem Decided.error_iff {α : Type} {table : TemplateTable} {fragment : Fragment}
    {result : Except Error α} (h : Decided table fragment result) (error : Error) :
    result = .error error ↔ FirstFault table fragment error := by
  cases result with
  | ok a => exact iff_of_false nofun fun ⟨path, hat, _⟩ => h path error hat
  | error own =>
    constructor
    · rintro he
      cases he
      exact h
    · intro hf
      rw [FirstFault.unique h hf]

/-- Under the lenient policy serializing a fragment whose maps were made fails exactly if a reached
node cannot be built by itself, and then as the first such node in document order does: it has no
template, its description cannot be rendered for its attributes, or it is a leaf whose description
has a hole. Fragments that differ only below nodes without a hole, or in their marks, fail alike. -/
theorem serializeFragment_error_iff (table : TemplateTable) {pool : Pool} {fragment : Fragment}
    (hm : ∀ node ∈ fragment, node.Maps pool.has) (target : Option η) {state : Guarded σ}
    (hg : state.guard.Reachable pool) :
    ((∃ error after,
        serializeFragment table .lenient fragment target state = (.error error, after)) ↔
      ∃ path node error, Reached table fragment path node ∧ node.Fault table error) ∧
    (∀ error,
      (∃ after, serializeFragment table .lenient fragment target state = (.error error, after)) ↔
        ∃ path node, Reached table fragment path node ∧ node.Fault table error ∧
          ∀ path' node' other, Reached table fragment path' node' → node'.Fault table other →
            NotBehind path path') ∧
    ∀ other, (∀ node ∈ other, node.Maps pool.has) →
      List.Forall₂ (Node.Alike table) fragment other → ∀ error,
      (∃ after, serializeFragment table .lenient fragment target state = (.error error, after)) ↔
        ∃ after, serializeFragment table .lenient other target state = (.error error, after) := by
  have hresult : ∀ {nodes : Fragment}, (∀ node ∈ nodes, node.Maps pool.has) → ∀ error,
      (∃ after, serializeFragment table .lenient nodes target state = (.error error, after)) ↔
        FirstFault table nodes error := by
    intro nodes hnodes error
    rw [← (serializeFragment_decided table hnodes target hg.faithful).error_iff error]
    exact ⟨fun ⟨_, h⟩ => by rw [h], fun h => ⟨_, Prod.ext h rfl⟩⟩
  refine ⟨⟨?_, ?_⟩, fun error => ?_, fun other hother halike error => ?_⟩
  · rintro ⟨error, hrun⟩
    obtain ⟨path, ⟨node, hreached, hfault⟩, -⟩ := (hresult hm error).mp hrun
    exact ⟨path, node, error, hreached, hfault⟩
  · rintro ⟨path, node, error, hreached, hfault⟩
    have hdecided := serializeFragment_decided table hm target hg.faithful
    rcases hrun : serializeFragment table .lenient fragment target state with ⟨own | root, after⟩
    · exact ⟨own, after, rfl⟩
    · rw [hrun] at hdecided
      exact absurd ⟨node, hreached, hfault⟩ (hdecided path error)
  · rw [hresult hm error]
    constructor
    · rintro ⟨path, ⟨node, hreached, hfault⟩, hfirst⟩
      exact ⟨path, node, hreached, hfault, fun path' node' other hr hf =>
        hfirst path' other ⟨node', hr, hf⟩⟩
    · rintro ⟨path, node, hreached, hfault, hfirst⟩
      exact ⟨path, ⟨node, hreached, hfault⟩, fun path' other ⟨node', hr, hf⟩ =>
        hfirst path' node' other hr hf⟩
  · rw [hresult hm error, hresult hother error, firstFault_congr halike error]

/-- A wrapper, an element that shows no content, and a wrapper for a leaf. -/
def sampleReach : TemplateTable where
  nodes := [("section", fun _ => .wrap "section"), ("aside", fun _ => .element "aside" [] []),
    ("rule", fun _ => .wrap "hr")]
  marks := sampleTable.marks

/-- A node without attributes, whose type has content or not. -/
def sampleNode (name : String) (content : Option String) (children : List Node) : Node :=
  ⟨⟨name, content, none, false, []⟩, ⟨0, []⟩, children, ["broken", "em"].map sampleMark, none⟩

/-- A leaf with a hole behind an aside with some content, and a node without a template behind
that. -/
def sampleAside (hidden : List Node) : Fragment :=
  [sampleNode "section" (some "any") [sampleNode "aside" (some "any") hidden,
    sampleNode "rule" none []], sampleNode "lost" none []]

/-- No map has attributes if none in the aside does. -/
theorem maps_sampleAside {hidden : List Node} (h : ∀ node ∈ hidden, node.Maps Pool.blank.has) :
    ∀ node ∈ sampleAside hidden, node.Maps Pool.blank.has := by
  have hnode : ∀ name content {children : List Node},
      (∀ child ∈ children, child.Maps Pool.blank.has) →
        (sampleNode name content children).Maps Pool.blank.has := by
    intro name content children hchildren
    refine .intro rfl (fun mark hmark => ?_) hchildren
    obtain ⟨name, -, rfl⟩ := List.mem_map.mp hmark
    rfl
  have hrule := hnode "rule" none (List.forall_mem_nil _)
  have hinside := List.forall_mem_cons.mpr
    ⟨hnode "aside" (some "any") h, List.forall_mem_singleton.mpr hrule⟩
  have hlost := hnode "lost" none (List.forall_mem_nil _)
  exact List.forall_mem_cons.mpr
    ⟨hnode "section" (some "any") hinside, List.forall_mem_singleton.mpr hlost⟩

/-- A node without a template in the aside does not matter, the leaf with a hole comes first, and
taking the content of the aside away changes nothing. -/
theorem serializeFragment_error_iff_sample :
    ∃ after, (serializeFragment sampleReach .lenient (sampleAside [sampleNode "lost" none []])
        none : Guarding Script Nat) ⟨.empty, .empty⟩ =
          (.error (.leafContentHole "rule"), after) ∧
      (∃ path node, Reached sampleReach (sampleAside [sampleNode "lost" none []]) path node ∧
        node.Fault sampleReach (.leafContentHole "rule")) ∧
      ∃ after, (serializeFragment sampleReach .lenient (sampleAside []) none :
        Guarding Script Nat) ⟨.empty, .empty⟩ = (.error (.leafContentHole "rule"), after) := by
  have hname : ∀ run : Except Error Nat × Guarded Script,
      (match run.1 with
        | .error (.leafContentHole name) => name == "rule"
        | _ => false) = true → ∃ after, run = (.error (.leafContentHole "rule"), after) := by
    rintro ⟨error | root, after⟩ h
    · cases error with
      | leafContentHole name =>
        obtain rfl : name = "rule" := eq_of_beq h
        exact ⟨after, rfl⟩
      | _ => cases h
    · cases h
  have hrun := hname (serializeFragment sampleReach .lenient
    (sampleAside [sampleNode "lost" none []]) none ⟨.empty, .empty⟩) (by decide +kernel)
  have haside : ∀ hidden, (sampleNode "aside" (some "any") hidden).LeavesNoHole sampleReach :=
    fun _ => ⟨_, _, rfl, rfl⟩
  have hsection : ∀ children,
      (sampleNode "section" (some "any") children).LeavesHole sampleReach :=
    fun _ => ⟨_, _, _, rfl, rfl⟩
  have hrule : (sampleNode "rule" none []).Fault sampleReach (.leafContentHole "rule") := by
    have hwrap : (sampleNode "rule" none []).rendering (fun _ => .wrap "hr") =
        .ok ⟨1, some 1⟩ := rfl
    exact .leafHole rfl hwrap rfl
  have hlost : (sampleNode "lost" none []).Fault sampleReach (.missingTemplate "lost") :=
    .missing rfl
  have halike : List.Forall₂ (Node.Alike sampleReach) (sampleAside [sampleNode "lost" none []])
      (sampleAside []) :=
    .cons (.opened (hsection _) rfl (hsection _) rfl
      (.cons (.closed (haside _) (haside _)) (.cons (.fault hrule hrule) .nil)))
      (.cons (.fault hlost hlost) .nil)
  have hmaps : ∀ node ∈ sampleAside [], node.Maps Pool.blank.has := maps_sampleAside nofun
  have hlostMaps : (sampleNode "lost" none []).Maps Pool.blank.has :=
    hmaps _ (List.mem_cons_of_mem _ (List.mem_singleton.mpr rfl))
  have hg : (⟨.empty, .empty⟩ : Guarded Script).guard.Reachable .blank := .empty
  obtain ⟨-, hfirst, hsame⟩ := serializeFragment_error_iff sampleReach
    (maps_sampleAside (List.forall_mem_singleton.mpr hlostMaps)) none hg
  obtain ⟨path, node, hreached, hfault, -⟩ := (hfirst _).mp hrun
  obtain ⟨after, hafter⟩ := hrun
  exact ⟨after, hafter, ⟨path, node, hreached, hfault⟩, (hsame _ hmaps halike _).mp ⟨after, hafter⟩⟩

end RichDoc
