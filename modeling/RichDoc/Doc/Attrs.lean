import RichDoc.Error
import RichDoc.Json.Identical

/-!
# Attribute maps with identity

The attributes of a node or a mark are a map of JSON values that never changes. A map carries a
token that its copies share. Equality compares contents; identity compares tokens, and decides
whether a value handed around is the very value that a map stores.
-/

namespace RichDoc

/-- An attribute map and its token. -/
structure Attrs where
  id : Nat
  fields : Json.Fields
  deriving DecidableEq, Repr, Inhabited

/-- Work that makes new attribute maps: it may fail, and it never hands out a token twice. -/
abbrev Making := ExceptT Error (StateM Nat)

namespace Attrs

/-- A new map. -/
def make (fields : Json.Fields) : Making Attrs := do
  let id ← get
  set (id + 1)
  return ⟨id, fields⟩

/-- Whether two maps are one and the same. -/
def isSame (a b : Attrs) : Bool := a.id == b.id

/-- Equality of contents. -/
def same (a b : Attrs) : Bool := a.isSame b || (Json.obj a.fields).same (Json.obj b.fields)

/-- The value of an attribute. -/
def get? (attrs : Attrs) (key : String) : Option Json := attrs.fields.get? key

/-- The text of an attribute whose value is a string. -/
def str? (attrs : Attrs) (key : String) : Option String := (attrs.get? key).bind Json.str?

/-- The listed attributes that are present, in the listed order. -/
def pick (attrs : Attrs) (names : List String) : Json.Fields := attrs.fields.pick names

/-- The form of a map in diagnostics. -/
def debugText (attrs : Attrs) : String := attrs.fields.debugText

end Attrs

/-- Where a value is stored: a map, a key of it, and the steps from there. -/
structure Origin where
  map : Nat
  key : String
  path : List Json.Step
  deriving DecidableEq, Repr

namespace Origin

/-- The place of an item of the array at a place. -/
def item (origin : Origin) (index : Nat) : Origin :=
  { origin with path := origin.path ++ [.index index] }

end Origin

end RichDoc
