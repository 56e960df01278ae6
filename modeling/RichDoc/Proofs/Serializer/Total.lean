import RichDoc.Proofs.Doc.Loading
import RichDoc.Proofs.Serializer.Rules
import RichDoc.Proofs.Template.Wrapping

/-!
# When serializing succeeds

Templates that are wrappers and leaves never fail, and a node whose type is no leaf can hold its
content. Then the only thing that can be missing is a template. So serializing succeeds when all
nodes have one, and otherwise it ends with the first node that has none.
-/

namespace RichDoc

/-! ### Templates that serve nodes and marks -/

/-- The template of a node fits it: a wrapper around its content, or a leaf with its text when it
has no content. -/
inductive TemplateTable.Serves (table : TemplateTable) (p : NodeData → List Outline → Prop)
    (node : Node) : Prop where
  | wrapper {template} : table.node? node.typeName = some template → (template node).Wraps p →
      node.isLeaf = false → node.text = none → Serves table p node
  | leaf {template} : table.node? node.typeName = some template →
      (template node).Tells p node.textContent → node.content = [] → Serves table p node

/-- The template of a mark is a wrapper. -/
def TemplateTable.ServesMark (table : TemplateTable) (p : NodeData → List Outline → Prop)
    (mark : Mark) : Prop :=
  ∃ template, table.mark? mark.typeName = some template ∧
    ∀ isInline, (template mark isInline).Wraps p

/-- All nodes at or below a node are served as far as they have templates, and all their marks
are. -/
inductive Node.Served (table : TemplateTable) (p : NodeData → List Outline → Prop) :
    Node → Prop where
  | intro {node} : (table.hasNode node.typeName = true → table.Serves p node) →
      (∀ mark ∈ node.marks, table.ServesMark p mark) →
      (∀ child ∈ node.content, Node.Served table p child) → Node.Served table p node

theorem TemplateTable.hasNode_of_node? {table : TemplateTable} {name : String}
    {template : NodeTemplate} (h : table.node? name = some template) :
    table.hasNode name = true := by
  rw [hasNode, h]
  rfl

namespace Node.Served

variable {table : TemplateTable} {p : NodeData → List Outline → Prop} {node : Node}

theorem marks (h : node.Served table p) : ∀ mark ∈ node.marks, table.ServesMark p mark := by
  cases h with
  | intro _ hmarks _ => exact hmarks

theorem content (h : node.Served table p) : ∀ child ∈ node.content, child.Served table p := by
  cases h with
  | intro _ _ hcontent => exact hcontent

/-- The template of a node that is served is a wrapper or a leaf. -/
theorem wraps_or_tells (h : node.Served table p) {template : NodeTemplate}
    (htemplate : table.node? node.typeName = some template) :
    ((template node).Wraps p ∧ node.isLeaf = false ∧ node.text = none) ∨
      ((template node).Tells p node.textContent ∧ node.content = []) := by
  cases h with
  | intro hserves _ _ =>
    cases hserves (TemplateTable.hasNode_of_node? htemplate) with
    | @wrapper other hother hwraps hleaf htext =>
      obtain rfl : other = template := Option.some.inj (hother.symm.trans htemplate)
      exact Or.inl ⟨hwraps, hleaf, htext⟩
    | @leaf other hother htells hcontent =>
      obtain rfl : other = template := Option.some.inj (hother.symm.trans htemplate)
      exact Or.inr ⟨htells, hcontent⟩

end Node.Served

theorem Node.inside_iff {x node : Node} :
    x.Inside node ↔ x = node ∨ ∃ child ∈ node.content, x.Inside child := by
  constructor
  · intro h
    cases h with
    | self => exact Or.inl rfl
    | content hchild h => exact Or.inr ⟨_, hchild, h⟩
  · rintro (rfl | ⟨child, hchild, h⟩)
    · exact .self x
    · exact .content hchild h

/-! ### Work that only lacks templates -/

/-- Work over nodes succeeds if all of them have templates, and otherwise ends with one that has
none. -/
def TemplateTable.Accounts {α : Type} (table : TemplateTable) (inside : Node → Prop) :
    Except Error α → Prop
  | .ok _ => ∀ x, inside x → table.hasNode x.typeName = true
  | .error error => ∃ x, inside x ∧ table.hasNode x.typeName = false ∧
      error = .missingTemplate x.typeName

namespace TemplateTable.Accounts

variable {σ α β : Type} {table : TemplateTable} {inside : Node → Prop}

/-- Success is decided by the nodes alone. -/
theorem isOk_iff {result : Except Error α} (h : table.Accounts inside result) :
    (∃ a, result = .ok a) ↔ ∀ x, inside x → table.hasNode x.typeName = true := by
  cases result with
  | ok a => exact iff_of_true ⟨a, rfl⟩ h
  | error error =>
    obtain ⟨x, hx, hnone, -⟩ := h
    refine iff_of_false (fun ⟨_, he⟩ => nomatch he) fun hall => ?_
    rw [hall x hx] at hnone
    cases hnone

theorem congr {other : Node → Prop} {result : Except Error α} (h : table.Accounts inside result)
    (hiff : ∀ x, inside x ↔ other x) : table.Accounts other result := by
  obtain rfl : inside = other := funext fun x => propext (hiff x)
  exact h

theorem map {result : Except Error α} (h : table.Accounts inside result) (f : α → β) :
    table.Accounts inside (result.map f) := by
  cases result <;> exact h

/-- Work of two parts is about the nodes of both. -/
theorem bind {work : Building σ α} {next : α → Building σ β} {s : σ}
    (h : table.Accounts inside (work s).1) (other : Node → Prop)
    (h' : ∀ a t, work s = (.ok a, t) → table.Accounts other (next a t).1) :
    table.Accounts (fun x => inside x ∨ other x) ((work >>= next) s).1 := by
  rcases hwork : work s with ⟨error | a, t⟩
  · rw [hwork] at h
    obtain ⟨x, hx, hnone, herror⟩ := h
    rw [Building.bind_apply_error hwork]
    exact ⟨x, Or.inl hx, hnone, herror⟩
  · rw [hwork] at h
    have hnext := h' a t hwork
    rw [Building.bind_apply_ok hwork]
    rcases hresult : (next a t).1 with error | b
    · rw [hresult] at hnext
      obtain ⟨x, hx, hnone, herror⟩ := hnext
      exact ⟨x, Or.inr hx, hnone, herror⟩
    · rw [hresult] at hnext
      rintro x (hx | hx)
      · exact h x hx
      · exact hnext x hx

/-- What never fails may follow. -/
theorem bind_ok {work : Building σ α} {next : α → Building σ β} {s : σ}
    (h : table.Accounts inside (work s).1)
    (h' : ∀ a t, ∃ b u, next a t = (.ok b, u)) :
    table.Accounts inside ((work >>= next) s).1 := by
  refine (h.bind (fun _ => False) fun a t _ => ?_).congr fun x => by rw [or_false]
  obtain ⟨b, u, hb⟩ := h' a t
  rw [hb]
  exact fun _ hx => hx.elim

end TemplateTable.Accounts

/-! ### Marks -/

variable {σ η : Type} [TreeBuilder σ η] {table : TemplateTable}
  {p : NodeData → List Outline → Prop} {policy : MarkPolicy}

/-- The wrapper of a mark that is served can be built. -/
theorem TemplateTable.ServesMark.exists_renderMark {mark : Mark} (h : table.ServesMark p mark)
    (node : Node) (state : Guarded σ) :
    ∃ (root hole : η) (after : Guarded σ),
      renderMark table mark node state = (.ok (some ⟨root, some hole⟩), after) := by
  obtain ⟨template, htemplate, hwraps⟩ := h
  obtain ⟨root, hole, after, hrun⟩ := (hwraps node.isInline).exists_renderGuarded (η := η)
    [mark.attrs, node.attrs] state
  refine ⟨root, hole, after, ?_⟩
  rw [renderMark, htemplate]
  dsimp only
  rw [Building.bind_apply_ok hrun]
  rfl

/-- Wrappers can be opened for marks that are served. -/
theorem exists_openMarks (policy : MarkPolicy) (node : Node) {marks : List Mark}
    (h : ∀ mark ∈ marks, table.ServesMark p mark) (opened : OpenMarks η) (state : Guarded σ) :
    ∃ opened' after, openMarks table policy node marks opened state = (.ok opened', after) := by
  induction marks generalizing opened state with
  | nil => exact ⟨opened, state, rfl⟩
  | cons mark rest ih =>
    obtain ⟨hmark, hrest⟩ := List.forall_mem_cons.mp h
    obtain ⟨root, hole, built, hbuilt⟩ := hmark.exists_renderMark (η := η) node state
    have hwrapper : attempt (renderMark table mark node : Guarding σ (Option (Rendered η))) state =
        (.ok (.ok (some ⟨root, some hole⟩)), built) := by
      rw [attempt_apply, hbuilt]
    rw [openMarks, Building.bind_apply_ok hwrapper]
    exact ih hrest ⟨opened.marks ++ [⟨mark, opened.top⟩], hole⟩ (built.appended opened.top root)

/-- A node can be put into the wrappers of marks that are served. -/
theorem exists_wrapMarks (node : Node) {marks : List Mark}
    (h : ∀ mark ∈ marks, table.ServesMark p mark) (inner : η) (state : Guarded σ) :
    ∃ (root : η) (after : Guarded σ),
      wrapMarks table node marks inner state = (.ok root, after) := by
  induction marks with
  | nil => exact ⟨inner, state, rfl⟩
  | cons mark rest ih =>
    obtain ⟨hmark, hrest⟩ := List.forall_mem_cons.mp h
    obtain ⟨inner', t, hinner⟩ := ih hrest
    obtain ⟨root, hole, built, hbuilt⟩ := hmark.exists_renderMark (η := η) node t
    refine ⟨root, built.appended hole inner', ?_⟩
    rw [wrapMarks, Building.bind_apply_ok hinner, Building.bind_apply_ok hbuilt]
    rfl

/-! ### Nodes -/

/-- Building siblings lacks the templates that building each of them lacks. -/
theorem serializeNodes_accounts {nodes : List Node}
    (hserved : ∀ node ∈ nodes, ∀ mark ∈ node.marks, table.ServesMark p mark)
    (h : ∀ node ∈ nodes, ∀ state : Guarded σ,
      table.Accounts (fun x => x.Inside node) (renderNode (η := η) table policy node state).1)
    (opened : OpenMarks η) (state : Guarded σ) :
    table.Accounts (fun x => ∃ node ∈ nodes, x.Inside node)
      (serializeNodes table policy opened nodes state).1 := by
  induction nodes generalizing opened state with
  | nil =>
    rw [serializeNodes]
    rintro x ⟨node, hnode, -⟩
    cases hnode
  | cons node rest ih =>
    obtain ⟨hmarks, hserved⟩ := List.forall_mem_cons.mp hserved
    obtain ⟨hnode, hrest⟩ := List.forall_mem_cons.mp h
    have hleft : ∀ mark ∈ (agreeing table opened.marks node.marks).2.2, table.ServesMark p mark :=
      fun mark hmark => hmarks mark (mem_of_mem_agreeing table hmark)
    obtain ⟨opened', inside, hopened⟩ := exists_openMarks policy node hleft
      (closing (agreeing table opened.marks node.marks).1
        (agreeing table opened.marks node.marks).2.1 opened.top) state
    have hboth : table.Accounts (fun x => x.Inside node ∨ ∃ other ∈ rest, x.Inside other)
        (((renderNode table policy node : Guarding σ η) >>= fun inner => do
          appendTo opened'.top inner
          serializeNodes table policy opened' rest) inside).1 := by
      refine (hnode inside).bind _ fun inner built _ => ?_
      rw [Building.bind_apply_ok (appendTo_apply _ _ _)]
      exact ih hserved hrest opened' _
    rw [serializeNodes]
    dsimp only
    rw [Building.bind_apply_ok hopened]
    exact hboth.congr fun x => by rw [List.exists_mem_cons_iff]

/-- Building a node lacks only templates of nodes at or below it. -/
theorem renderNode_accounts {node : Node} (hserved : node.Served table p) (state : Guarded σ) :
    table.Accounts (fun x => x.Inside node)
      (renderNode (η := η) table policy node state).1 := by
  induction node using Node.induction_content generalizing state with
  | step node ih =>
    obtain ⟨type, attrs, content, marks, text⟩ := node
    have hcontent := hserved.content
    rw [renderNode]
    cases hnode : table.node? type.name with
    | none =>
      have hnone : table.hasNode type.name = false := by
        rw [TemplateTable.hasNode, hnode]
        rfl
      exact ⟨_, .self _, hnone, rfl⟩
    | some template =>
      have hsome := TemplateTable.hasNode_of_node? hnode
      dsimp only
      rcases hserved.wraps_or_tells hnode with ⟨hwraps, hleaf, -⟩ | ⟨htells, hempty⟩
      · obtain ⟨root, hole, made, hmade⟩ := hwraps.exists_renderGuarded (η := η) [attrs] state
        have hinside : table.Accounts (fun x => ∃ child ∈ content, x.Inside child)
            (serializeNodes table policy ⟨[], hole⟩ content made).1 :=
          serializeNodes_accounts (fun child hchild => (hcontent child hchild).marks)
            (fun child hchild => ih child hchild (hcontent child hchild)) ⟨[], hole⟩ made
        have hboth : table.Accounts
            (fun x => (∃ child ∈ content, x.Inside child) ∨ x = ⟨type, attrs, content, marks, text⟩)
            ((serializeNodes table policy ⟨[], hole⟩ content >>= fun _ => pure root) made).1 := by
          refine hinside.bind _ fun _ _ _ x hx => ?_
          rw [hx]
          exact hsome
        have hleaf : ¬type.isLeaf = true := Bool.eq_false_iff.mp hleaf
        rw [Building.bind_apply_ok hmade]
        dsimp only
        rw [if_neg hleaf]
        exact hboth.congr fun x => by rw [or_comm, Node.inside_iff]
      · obtain ⟨root, made, hmade⟩ := htells.exists_renderGuarded (η := η) [attrs] state
        rw [Building.bind_apply_ok hmade]
        intro x hx
        rcases Node.inside_iff.mp hx with rfl | ⟨child, hchild, -⟩
        · exact hsome
        · rw [hempty] at hchild
          cases hchild

/-- Building a fragment lacks only templates of nodes in it. -/
theorem serializeFragment_accounts {fragment : Fragment}
    (hserved : ∀ node ∈ fragment, node.Served table p) (target : Option η) (state : Guarded σ) :
    table.Accounts (fun x => ∃ node ∈ fragment, x.Inside node)
      (serializeFragment table policy fragment target state).1 := by
  obtain ⟨container, start, hcontainer⟩ : ∃ container start,
      (containerOf target : Guarding σ η) state = (.ok container, start) := by
    cases target with
    | none => exact ⟨_, _, rfl⟩
    | some target => exact ⟨target, state, rfl⟩
  have hnodes : table.Accounts (fun x => ∃ node ∈ fragment, x.Inside node)
      (serializeNodes table policy (openedIn (σ := σ) container []) fragment start).1 :=
    serializeNodes_accounts (fun node hnode => (hserved node hnode).marks)
      (fun node hnode => renderNode_accounts (hserved node hnode)) _ start
  rw [serializeFragment_eq, Building.bind_apply_ok hcontainer]
  exact hnodes.bind_ok fun _ t => ⟨container, t, rfl⟩

/-- Building a node inside the wrappers of its marks lacks only templates of nodes at or below
it. -/
theorem serializeNode_accounts {node : Node} (hserved : node.Served table p)
    (state : Guarded σ) :
    table.Accounts (fun x => x.Inside node)
      (serializeNode (η := η) table policy node state).1 := by
  exact (renderNode_accounts hserved state).bind_ok fun inner t =>
    exists_wrapMarks node hserved.marks inner t

/-! ### Serializers -/

namespace Serializer

variable {serializer : Serializer}

/-- A fragment in a store lacks only templates of nodes in it. -/
theorem fragmentToDom_accounts {fragment : Fragment}
    (hserved : ∀ node ∈ fragment, node.Served serializer.templates p) (policy : MarkPolicy) :
    serializer.templates.Accounts (fun x => ∃ node ∈ fragment, x.Inside node)
      (serializer.fragmentToDom policy fragment) := by
  have h : serializer.templates.Accounts (fun x => ∃ node ∈ fragment, x.Inside node)
      (serializeFragment serializer.templates policy fragment none
        (⟨serializer.guard, Dom.empty⟩ : Guarded Dom)).1 :=
    serializeFragment_accounts hserved none _
  exact h.map _

/-- A node in a store lacks only templates of nodes at or below it. -/
theorem nodeToDom_accounts {node : Node} (hserved : node.Served serializer.templates p)
    (policy : MarkPolicy) :
    serializer.templates.Accounts (fun x => x.Inside node) (serializer.nodeToDom policy node) := by
  have h : serializer.templates.Accounts (fun x => x.Inside node)
      (serializeNode serializer.templates policy node
        (⟨serializer.guard, Dom.empty⟩ : Guarded Dom)).1 := serializeNode_accounts hserved _
  exact h.map _

/-- So does the HTML of a fragment. -/
theorem fragmentToHtml_accounts {fragment : Fragment}
    (hserved : ∀ node ∈ fragment, node.Served serializer.templates p) (policy : MarkPolicy)
    (style : Html.Style) :
    serializer.templates.Accounts (fun x => ∃ node ∈ fragment, x.Inside node)
      (serializer.fragmentToHtml policy style fragment) :=
  (fragmentToDom_accounts hserved policy).map _

/-- So does the HTML of a node. -/
theorem nodeToHtml_accounts {node : Node} (hserved : node.Served serializer.templates p)
    (policy : MarkPolicy) (style : Html.Style) :
    serializer.templates.Accounts (fun x => x.Inside node)
      (serializer.nodeToHtml policy style node) :=
  (nodeToDom_accounts hserved policy).map _

end Serializer

end RichDoc
