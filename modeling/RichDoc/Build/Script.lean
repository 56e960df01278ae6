import RichDoc.Build.Basic

/-!
# Scripts of building calls

A script records the calls that build a tree. The nodes are numbered in the order of their creation
from 1 on. Replaying a script builds the same tree into anything else that can be built.
-/

namespace RichDoc

/-- One building call. Creating calls tell the number of the new node. -/
inductive Call where
  | element (id : Nat) (tag : String)
  | text (id : Nat) (text : String)
  | fragment (id : Nat)
  | attribute (id : Nat) (key value : String)
  | append (parent child : Nat)
  deriving DecidableEq, Repr

/-- The calls so far and the number of the last node created. -/
structure Script where
  count : Nat
  calls : Array Call
  deriving Repr

namespace Script

/-- No calls. -/
def empty : Script := ⟨0, #[]⟩

/-- Record the creation of a node. -/
def create (script : Script) (call : Nat → Call) : Nat × Script :=
  let id := script.count + 1
  (id, ⟨id, script.calls.push (call id)⟩)

/-- Record a call on existing nodes. -/
def record (script : Script) (call : Call) : Script :=
  { script with calls := script.calls.push call }

end Script

/-- Scripts can be built. -/
instance : TreeBuilder Script Nat where
  createElement script tag := script.create fun id => .element id tag
  createText script text := script.create fun id => .text id text
  createFragment script := script.create .fragment
  setAttribute script id key value := script.record (.attribute id key value)
  appendChild script parent child := script.record (.append parent child)

end RichDoc
