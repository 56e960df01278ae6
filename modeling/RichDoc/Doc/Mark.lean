import RichDoc.Doc.Attrs
import RichDoc.Doc.Type

/-!
# Marks

A mark annotates a node. The marks of a node form a set: they are ordered by the rank of their
types, and of each type there is one.
-/

namespace RichDoc

/-- A mark of some type. -/
structure Mark where
  type : MarkType
  attrs : Attrs
  deriving Repr, Inhabited

namespace Mark

/-- The name of the type. -/
def typeName (mark : Mark) : String := mark.type.name

/-- Whether neighbours with an equal mark share one wrapper. -/
def isSpanning (mark : Mark) : Bool := mark.type.spanning

/-- Equality: one type and equal attributes. -/
def same (a b : Mark) : Bool := a.typeName == b.typeName && a.attrs.same b.attrs

/-- Place a mark among those that stay: before the first one of a greater rank, unless it has been
placed already. Marks of its type go. -/
def place (mark : Mark) : List Mark → Bool → List Mark
  | [], placed => if placed then [] else [mark]
  | other :: rest, placed =>
    if other.typeName = mark.typeName then place mark rest placed
    else if !placed && mark.type.rank < other.type.rank then
      mark :: other :: place mark rest true
    else other :: place mark rest placed

/-- Add a mark to a set. An equal one leaves the set as it is; one of the same type is replaced. -/
def addToSet (mark : Mark) (marks : List Mark) : List Mark :=
  if marks.any fun other => other.same mark then marks else place mark marks false

/-- The set of some marks, added one after another. -/
def setOf (marks : List Mark) : List Mark :=
  marks.foldl (fun set mark => mark.addToSet set) []

/-- Whether an equal mark is among others. -/
def isIn (mark : Mark) (marks : List Mark) : Bool := marks.any fun other => other.same mark

/-- The form of a mark in diagnostics. -/
def debugText (mark : Mark) : String :=
  if mark.attrs.fields.isEmpty then mark.typeName
  else mark.typeName ++ "(" ++ mark.attrs.debugText ++ ")"

end Mark

end RichDoc
