import RichDoc.Binary64

/-!
# JSON values

An object is a list of fields in the order of their first insertion. Two values are the same when
their numbers are of one kind and equal, and their objects hold the same fields in any order.
-/

namespace RichDoc

/-- A number: an integer that fits in 64 bits, or a binary fraction. `1` and `1.0` differ. -/
inductive Number where
  | int (n : Int)
  | float (x : Binary64)
  deriving DecidableEq, Repr

namespace Number

/-- Equality of values within each kind. -/
def same : Number → Number → Bool
  | .int a, .int b => a == b
  | .float x, .float y => x.sameValue y
  | _, _ => false

/-- A number that is a natural number written as an integer. -/
def toNat? : Number → Option Nat
  | .int (.ofNat n) => some n
  | _ => none

end Number

/-- A JSON value. -/
inductive Json where
  | null
  | bool (b : Bool)
  | num (n : Number)
  | str (s : String)
  | arr (items : List Json)
  | obj (fields : List (String × Json))
  deriving Repr, Inhabited

namespace Json

/-- The fields of an object. -/
abbrev Fields := List (String × Json)

namespace Fields

/-- The value of a field. -/
def get? (fields : Fields) (key : String) : Option Json :=
  match fields with
  | [] => none
  | (k, v) :: rest => if k = key then some v else get? rest key

/-- Put a field. A key that is present keeps its place and takes the new value. -/
def insert (fields : Fields) (key : String) (value : Json) : Fields :=
  match fields with
  | [] => [(key, value)]
  | (k, v) :: rest => if k = key then (k, value) :: rest else (k, v) :: insert rest key value

/-- Put pairs one after another. -/
def ofPairs (pairs : List (String × Json)) : Fields :=
  pairs.foldl (fun fields pair => fields.insert pair.1 pair.2) []

/-- The keys in order. -/
def keys (fields : Fields) : List String := fields.map Prod.fst

/-- The listed fields that are present, in the listed order. -/
def pick (fields : Fields) (names : List String) : Fields :=
  ofPairs (names.filterMap fun name => (get? fields name).map fun value => (name, value))

end Fields

mutual

/-- Equality of values. -/
def same : Json → Json → Bool
  | .null, .null => true
  | .bool a, .bool b => a == b
  | .num a, .num b => a.same b
  | .str a, .str b => a == b
  | .arr a, .arr b => sameItems a b
  | .obj a, .obj b => a.length == b.length && sameFields a b
  | _, _ => false

/-- Equality item by item. -/
def sameItems : List Json → List Json → Bool
  | [], [] => true
  | a :: as, b :: bs => same a b && sameItems as bs
  | _, _ => false

/-- Every field on the left is on the right with the same value. -/
def sameFields : List (String × Json) → List (String × Json) → Bool
  | [], _ => true
  | (k, v) :: rest, other =>
    (match Fields.get? other k with
      | some w => same v w
      | none => false) && sameFields rest other

end

/-- The value at the end of a chain of array indexes and object keys. -/
inductive Step where
  | index (i : Nat)
  | key (k : String)
  deriving DecidableEq, Repr

/-- One step into a value. -/
def step? : Json → Step → Option Json
  | .arr items, .index i => items[i]?
  | .obj fields, .key k => Fields.get? fields k
  | _, _ => none

/-- The value at the end of a chain of steps. -/
def at? (value : Json) (path : List Step) : Option Json :=
  path.foldlM step? value

/-- The text of a string value. -/
def str? : Json → Option String
  | .str s => some s
  | _ => none

/-- A natural number written as an integer. -/
def nat? : Json → Option Nat
  | .num n => n.toNat?
  | _ => none

mutual

/-- No object has two fields of one name, at any depth. -/
def WellFormed : Json → Prop
  | .arr items => WellFormedItems items
  | .obj fields => (Fields.keys fields).Nodup ∧ WellFormedFields fields
  | _ => True

/-- The items of an array are well formed. -/
def WellFormedItems : List Json → Prop
  | [] => True
  | item :: rest => WellFormed item ∧ WellFormedItems rest

/-- The values of an object's fields are well formed. -/
def WellFormedFields : List (String × Json) → Prop
  | [] => True
  | (_, value) :: rest => WellFormed value ∧ WellFormedFields rest

end

end Json

end RichDoc
