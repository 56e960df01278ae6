import RichDoc.Build.Script
import RichDoc.Proofs.Build.Simulation

/-!
# Scripts that go on

Nodes of a script are numbered on from those that are there. What some work adds to a script is
what it makes of the empty one, with the numbers moved up.
-/

namespace RichDoc

/-- A call with all numbers moved up. -/
def Call.shift (base : Nat) : Call → Call
  | .element id tag => .element (base + id) tag
  | .text id value => .text (base + id) value
  | .fragment id => .fragment (base + id)
  | .attribute id key value => .attribute (base + id) key value
  | .append parent child => .append (base + parent) (base + child)

/-- A rendered description with all numbers moved up. -/
def Rendered.shift (base : Nat) (rendered : Rendered Nat) : Rendered Nat :=
  ⟨base + rendered.root, rendered.hole.map (base + ·)⟩

namespace Script

/-- A script that goes on with the calls of another one. -/
def goOn (script more : Script) : Script :=
  ⟨script.count + more.count, script.calls ++ more.calls.map (Call.shift script.count)⟩

@[simp] theorem goOn_empty (script : Script) : script.goOn empty = script := by
  simp [goOn, empty]

theorem goOn_create (script more : Script) (call : Nat → Call)
    (h : ∀ base id, (call id).shift base = call (base + id)) :
    (script.goOn more).create call =
      (script.count + (more.create call).1, script.goOn (more.create call).2) := by
  simp [goOn, create, h, Nat.add_assoc]

theorem goOn_record (script more : Script) (call : Call) :
    (script.goOn more).record (call.shift script.count) = script.goOn (more.record call) := by
  simp [goOn, record]

/-- On one side a script goes on, on the other the same calls begin a new one. -/
def goingOn (base : Script) : Pairing Script Script where
  states s t := s = base.goOn t
  nodes _ _ x y := x = base.count + y
  createElement {_ more} tag h := by
    obtain rfl := h
    have hnew := goOn_create base more (.element · tag) fun _ _ => rfl
    exact ⟨⟨congrArg Prod.snd hnew, id⟩, congrArg Prod.fst hnew⟩
  createText {_ more} text h := by
    obtain rfl := h
    have hnew := goOn_create base more (.text · text) fun _ _ => rfl
    exact ⟨⟨congrArg Prod.snd hnew, id⟩, congrArg Prod.fst hnew⟩
  createFragment {_ more} h := by
    obtain rfl := h
    have hnew := goOn_create base more .fragment fun _ _ => rfl
    exact ⟨⟨congrArg Prod.snd hnew, id⟩, congrArg Prod.fst hnew⟩
  setAttribute key value h hn := by
    obtain rfl := h
    obtain rfl := hn
    exact ⟨goOn_record base _ (.attribute _ key value), id⟩
  appendChild h hn hn' := by
    obtain rfl := h
    obtain rfl := hn
    obtain rfl := hn'
    exact ⟨goOn_record base _ (.append _ _), id⟩

/-- A node that corresponds is the same node with its number moved up. -/
theorem eq_map_of_rel {base : Nat} {first second : Option Nat}
    (h : Option.Rel (fun x y => x = base + y) first second) : first = second.map (base + ·) := by
  cases h with
  | some h => exact congrArg some h
  | none => rfl

end Script

end RichDoc
