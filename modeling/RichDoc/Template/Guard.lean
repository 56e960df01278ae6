import RichDoc.Doc.Attrs

/-!
# Guarding against stored templates

An attribute value that looks like a template is data of the document. If a template hands it back
as its result, the document would choose the markup. The guard knows where such values are stored:
an array that begins with a string, reached from an attribute through arrays only. Inside such an
array it does not look further.

Scans are kept for later requests. When a new scan would be kept and the store is full, the scans of
maps that nobody holds any more are dropped.
-/

namespace RichDoc

/-- The places of the values of one map that look like templates. -/
abbrev Suspicious := List Origin

/-- Whether an array begins with a string. -/
def startsWithText : List Json → Bool
  | .str _ :: _ => true
  | _ => false

mutual

/-- The template-shaped arrays at or below a value. -/
def scanValue (origin : Origin) : Json → Suspicious
  | .arr items => if startsWithText items then [origin] else scanItems origin 0 items
  | _ => []

/-- The template-shaped arrays at or below items, the first of which has an index. -/
def scanItems (origin : Origin) (index : Nat) : List Json → Suspicious
  | [] => []
  | item :: rest => scanValue (origin.item index) item ++ scanItems origin (index + 1) rest

end

/-- The template-shaped arrays of a map. -/
def Suspicious.scan (attrs : Attrs) : Suspicious :=
  attrs.fields.flatMap fun field => scanValue ⟨attrs.id, field.1, []⟩ field.2

/-- A scan that is kept, and whether somebody still holds its map. -/
structure GuardEntry where
  map : Attrs
  found : Suspicious
  alive : Bool
  deriving Repr

/-- Whether an entry is about a map. Its token tells. -/
def GuardEntry.isOf (entry : GuardEntry) (attrs : Attrs) : Bool := entry.map.isSame attrs

/-- The scans that are kept. -/
structure Guard where
  entries : List GuardEntry
  deriving Repr

namespace Guard

/-- Nothing is kept. -/
def empty : Guard := ⟨[]⟩

/-- The size from which on a new scan first clears out dead ones. -/
def threshold : Nat := 4096

/-- The number of scans kept. -/
def cached (guard : Guard) : Nat := guard.entries.length

/-- The entries after clearing out, if that is due. -/
def cleared (guard : Guard) : List GuardEntry :=
  if threshold ≤ guard.cached then guard.entries.filter fun entry => entry.alive
  else guard.entries

/-- The scan of a map, kept unless the map is empty. -/
def suspicious (guard : Guard) (attrs : Attrs) : Suspicious × Guard :=
  if attrs.fields.isEmpty then ([], guard)
  else
    match guard.entries.find? fun entry => entry.isOf attrs with
    | some entry => (entry.found, guard)
    | none =>
      let found := Suspicious.scan attrs
      (found, ⟨guard.cleared ++ [⟨attrs, found, true⟩]⟩)

/-- The scans of several maps, empty ones left out. -/
def collect (guard : Guard) : List Attrs → List Suspicious × Guard
  | [] => ([], guard)
  | attrs :: rest =>
    let (found, guard) := guard.suspicious attrs
    let (others, guard) := collect guard rest
    (if found.isEmpty then others else found :: others, guard)

/-- Nobody holds a map any more. -/
def release (guard : Guard) (id : Nat) : Guard :=
  ⟨guard.entries.map fun entry =>
    if entry.map.id = id then { entry with alive := false } else entry⟩

/-- The form of a guard in diagnostics. -/
def debugText (guard : Guard) : String :=
  Text.recordText "SuspiciousGuard" [("cached", toString guard.cached)]

end Guard

end RichDoc
