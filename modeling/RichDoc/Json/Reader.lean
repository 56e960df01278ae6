import RichDoc.Json.Draft

/-!
# Reading JSON text

The reader turns any text into a draft. Decimal fractions are read in two roundings: the digits as
an integer of at most 64 bits, further digits only counted, and then one product or quotient with a
power of ten.
-/

namespace RichDoc.Json

namespace Reader

/-- Drop spaces, tabs and line ends. -/
def skipSpace : List Char → List Char
  | [] => []
  | c :: rest => if c = ' ' ∨ c = '\t' ∨ c = '\n' ∨ c = '\r' then skipSpace rest else c :: rest

/-- The value of a decimal digit. -/
def digit? (c : Char) : Option Nat :=
  if '0' ≤ c ∧ c ≤ '9' then some (c.toNat - '0'.toNat) else none

/-- The value of a hexadecimal digit. -/
def hexDigit? (c : Char) : Option Nat :=
  if '0' ≤ c ∧ c ≤ '9' then some (c.toNat - '0'.toNat)
  else if 'a' ≤ c ∧ c ≤ 'f' then some (c.toNat - 'a'.toNat + 10)
  else if 'A' ≤ c ∧ c ≤ 'F' then some (c.toNat - 'A'.toNat + 10)
  else none

/-- The largest significand that is read digit by digit. -/
def significandLimit : Nat := 0xffffffffffffffff

/-- The largest exponent that is read digit by digit. -/
def exponentLimit : Nat := 0x7fffffff

/-- The number nearest to a power of ten up to the 308th. -/
def powerOfTen (n : Nat) : Binary64 := (Binary64.ofNat? (Nat.pow 10 n)).getD (.zero false)

/-- Divide by the 308th power of ten until the exponent is in range. -/
def scaleDown : Nat → Binary64 → Nat → Binary64
  | 0, x, _ => x
  | fuel + 1, x, e =>
    if e ≤ 308 then (x.div? (powerOfTen e)).getD x
    else if x.isZero then x
    else scaleDown fuel ((x.div? (powerOfTen 308)).getD x) (e - 308)

/-- A significand times a power of ten. -/
def scaled (significand : Nat) (e : Int) : Except Fault Binary64 :=
  let x := (Binary64.ofNat? significand).getD (.zero false)
  if 0 ≤ e then
    if 308 < e then if x.isZero then .ok x else .error .numberTooLarge
    else
      match x.mul? (powerOfTen e.toNat) with
      | some y => .ok y
      | none => .error .numberTooLarge
  else .ok (scaleDown 4 x (-e).toNat)

/-- A decimal fraction with its sign. -/
def fraction (negative : Bool) (significand : Nat) (e : Int) : Except Fault Number := do
  let x ← scaled significand e
  .ok (.float { x with negative := negative })

/-- Read digits into a significand while it stays within the limit, and count them. -/
def readDigits (limit : Nat) : List Char → Nat → Nat → Nat × Nat × List Char
  | [], value, count => (value, count, [])
  | c :: rest, value, count =>
    match digit? c with
    | none => (value, count, c :: rest)
    | some d =>
      if value * 10 + d ≤ limit then readDigits limit rest (value * 10 + d) (count + 1)
      else (value, count, c :: rest)

/-- Count digits without reading them. -/
def countDigits : List Char → Nat → Nat × List Char
  | [], count => (count, [])
  | c :: rest, count =>
    match digit? c with
    | none => (count, c :: rest)
    | some _ => countDigits rest (count + 1)

/-- Keep an exponent within its range. -/
def clampExponent (e : Int) : Int := max (-(exponentLimit : Int) - 1) (min exponentLimit e)

/-- Read what follows the exponent mark. -/
def readExponent (negative : Bool) (significand : Nat) (e : Int) (cs : List Char) :
    Except Fault (Number × List Char) :=
  let signed : Bool × List Char := match cs with
    | '+' :: rest => (false, rest)
    | '-' :: rest => (true, rest)
    | cs => (false, cs)
  match signed.2 with
  | [] => .error .endInValue
  | c :: rest =>
    match digit? c with
    | none => .error .badNumber
    | some d =>
      let (value, _, rest) := readDigits exponentLimit rest d 0
      let (more, rest) := countDigits rest 0
      if more = 0 then do
        let x ← fraction negative significand
          (clampExponent (if signed.1 then e - value else e + value))
        .ok (x, rest)
      else if significand ≠ 0 ∧ signed.1 = false then .error .numberTooLarge
      else .ok (.float (.zero negative), rest)

/-- Read an exponent if one follows, and build the number. -/
def readRest (negative : Bool) (significand : Nat) (e : Int) (cs : List Char) :
    Except Fault (Number × List Char) :=
  match cs with
  | 'e' :: rest => readExponent negative significand e rest
  | 'E' :: rest => readExponent negative significand e rest
  | cs => do
    let x ← fraction negative significand e
    .ok (x, cs)

/-- Read the digits after the point. -/
def readFraction (negative : Bool) (significand : Nat) (e : Int) (cs : List Char) :
    Except Fault (Number × List Char) :=
  let (value, count, rest) := readDigits significandLimit cs significand 0
  let (more, rest) := countDigits rest 0
  if count = 0 ∧ more = 0 then
    match rest with
    | [] => .error .endInValue
    | _ :: _ => .error .badNumber
  else readRest negative value (e - count) rest

/-- An integer with its sign, as a fraction when it does not fit or is a negative zero. -/
def integer (negative : Bool) (n : Nat) : Except Fault Number :=
  if negative then
    if n = 0 ∨ 0x8000000000000000 < n then fraction true n 0 else .ok (.int (-(n : Int)))
  else .ok (.int n)

/-- Read a number after its sign. -/
def readNumber (negative : Bool) (cs : List Char) : Except Fault (Number × List Char) :=
  match cs with
  | [] => .error .endInValue
  | c :: rest =>
    match digit? c with
    | none => .error .badNumber
    | some d =>
      let (value, _, after) :=
        if d = 0 then (0, 0, rest) else readDigits significandLimit rest d 0
      let (more, after) := countDigits after 0
      if d = 0 ∧ more ≠ 0 then .error .badNumber
      else
        match after with
        | '.' :: rest => readFraction negative value more rest
        | 'e' :: rest => readExponent negative value more rest
        | 'E' :: rest => readExponent negative value more rest
        | after =>
          if more = 0 then do
            let n ← integer negative value
            .ok (n, after)
          else do
            let x ← fraction negative value more
            .ok (x, after)

/-- The number of bytes of a text. -/
def byteCount (cs : List Char) : Nat := cs.foldl (fun n c => n + c.utf8Size) 0

/-- Read four hexadecimal digits. Fewer than four bytes are the end of the text. -/
def readHex (cs : List Char) : Except Fault (Nat × List Char) :=
  if byteCount (cs.take 4) < 4 then .error .endInString
  else
    match cs with
    | a :: b :: c :: d :: rest =>
      match hexDigit? a, hexDigit? b, hexDigit? c, hexDigit? d with
      | some a, some b, some c, some d => .ok (((a * 16 + b) * 16 + c) * 16 + d, rest)
      | _, _, _, _ => .error .badEscape
    | _ => .error .badEscape

/-- Read the code unit of an escape, and a second one when the first is half of a pair. -/
def readUnicode (cs : List Char) : Except Fault (Char × List Char) := do
  let (high, rest) ← readHex cs
  if 0xdc00 ≤ high ∧ high ≤ 0xdfff then .error .loneSurrogate
  else if high < 0xd800 ∨ 0xdbff < high then .ok (Char.ofNat high, rest)
  else
    match rest with
    | [] => .error .endInString
    | '\\' :: rest =>
      match rest with
      | [] => .error .endInString
      | 'u' :: rest =>
        let (low, rest) ← readHex rest
        if 0xdc00 ≤ low ∧ low ≤ 0xdfff then
          .ok (Char.ofNat ((high - 0xd800) * 0x400 + (low - 0xdc00) + 0x10000), rest)
        else .error .loneSurrogate
      | _ => .error .loneSurrogate
    | _ => .error .loneSurrogate

/-- Read one escape after its backslash. -/
def readEscape : List Char → Except Fault (Char × List Char)
  | [] => .error .endInString
  | '"' :: rest => .ok ('"', rest)
  | '\\' :: rest => .ok ('\\', rest)
  | '/' :: rest => .ok ('/', rest)
  | 'b' :: rest => .ok ('\x08', rest)
  | 'f' :: rest => .ok ('\x0c', rest)
  | 'n' :: rest => .ok ('\n', rest)
  | 'r' :: rest => .ok ('\r', rest)
  | 't' :: rest => .ok ('\t', rest)
  | 'u' :: rest => readUnicode rest
  | _ => .error .badEscape

/-- Read a string after its opening quote. -/
def readStringFrom : Nat → List Char → List Char → Except Fault (String × List Char)
  | 0, _, _ => .error .endInString
  | fuel + 1, done, cs =>
    match cs with
    | [] => .error .endInString
    | '"' :: rest => .ok (String.ofList done.reverse, rest)
    | '\\' :: rest => do
      let (c, rest) ← readEscape rest
      readStringFrom fuel (c :: done) rest
    | c :: rest =>
      if c.toNat < 0x20 then .error .controlInString else readStringFrom fuel (c :: done) rest

/-- Read a string after its opening quote. -/
def readString (cs : List Char) : Except Fault (String × List Char) :=
  readStringFrom (cs.length + 1) [] cs

/-- Read the rest of a literal. -/
def readLiteral : List Char → List Char → Except Fault (List Char)
  | [], cs => .ok cs
  | _ :: _, [] => .error .endInValue
  | e :: es, c :: cs => if c = e then readLiteral es cs else .error .badLiteral

/-- A scalar that was read, or the fault in it. -/
def scalar {α : Type} (make : α → Draft) :
    Except Fault (α × List Char) → Draft × Option (List Char)
  | .ok (value, rest) => (make value, some rest)
  | .error fault => (.cut fault, none)

/-- Where the next item of a list begins. -/
def nextItem (first : Bool) (cs : List Char) : Except Fault (List Char) :=
  match first, cs with
  | true, cs => .ok cs
  | false, ',' :: rest =>
    match skipSpace rest with
    | [] => .error .endInValue
    | ']' :: _ => .error .trailingComma
    | cs => .ok cs
  | false, _ => .error .expectedListComma

/-- Where the text of the next key begins, after its quote. -/
def nextKey (first : Bool) (cs : List Char) : Except Fault (List Char) :=
  match first, cs with
  | true, '"' :: rest => .ok rest
  | true, _ => .error .keyNotString
  | false, ',' :: rest =>
    match skipSpace rest with
    | [] => .error .endInValue
    | '"' :: rest => .ok rest
    | '\x7d' :: _ => .error .trailingComma
    | _ => .error .keyNotString
  | false, _ => .error .expectedObjectComma

/-- Where a value begins after its key. -/
def afterKey (cs : List Char) : Except Fault (List Char) :=
  match skipSpace cs with
  | [] => .error .endInObject
  | ':' :: rest => .ok rest
  | _ => .error .expectedColon

mutual

/-- Read a value with at most `depth` containers inside each other. No rest means that the reading
stopped at a fault. -/
def readValue : Nat → Nat → List Char → Draft × Option (List Char)
  | 0, _, _ => (.cut .endInValue, none)
  | fuel + 1, depth, cs =>
    match skipSpace cs with
    | [] => (.cut .endInValue, none)
    | '"' :: rest => scalar .str (readString rest)
    | '[' :: rest =>
      if depth = 0 then (.arr [] (some .tooDeep), none)
      else
        let (items, tail, rest) := readItems fuel (depth - 1) true rest
        (.arr items tail, rest)
    | '\x7b' :: rest =>
      if depth = 0 then (.obj [] (some .tooDeep), none)
      else
        let (fields, tail, rest) := readFields fuel (depth - 1) true rest
        (.obj fields tail, rest)
    | 'n' :: rest =>
      scalar (fun _ => .null) ((readLiteral "ull".toList rest).map fun rest => ((), rest))
    | 't' :: rest =>
      scalar (fun _ => .bool true) ((readLiteral "rue".toList rest).map fun rest => ((), rest))
    | 'f' :: rest =>
      scalar (fun _ => .bool false) ((readLiteral "alse".toList rest).map fun rest => ((), rest))
    | '-' :: rest => scalar .num (readNumber true rest)
    | c :: rest =>
      if (digit? c).isSome then scalar .num (readNumber false (c :: rest))
      else (.cut .expectedValue, none)

/-- Read the items of a list up to its end. -/
def readItems : Nat → Nat → Bool → List Char → List Draft × Option Fault × Option (List Char)
  | 0, _, _, _ => ([], some .endInList, none)
  | fuel + 1, depth, first, cs =>
    match skipSpace cs with
    | [] => ([], some .endInList, none)
    | ']' :: rest => ([], none, some rest)
    | cs =>
      match nextItem first cs with
      | .error fault => ([], some fault, none)
      | .ok cs =>
        match readValue fuel depth cs with
        | (item, none) => ([item], none, none)
        | (item, some rest) =>
          let (items, tail, rest) := readItems fuel depth false rest
          (item :: items, tail, rest)

/-- Read the fields of an object up to its end. -/
def readFields :
    Nat → Nat → Bool → List Char → List (String × Draft) × Option Fault × Option (List Char)
  | 0, _, _, _ => ([], some .endInObject, none)
  | fuel + 1, depth, first, cs =>
    match skipSpace cs with
    | [] => ([], some .endInObject, none)
    | '\x7d' :: rest => ([], none, some rest)
    | cs =>
      match (nextKey first cs).bind readString with
      | .error fault => ([], some fault, none)
      | .ok (key, rest) =>
        match afterKey rest with
        | .error fault => ([(key, .cut fault)], none, none)
        | .ok rest =>
          match readValue fuel depth rest with
          | (value, none) => ([(key, value)], none, none)
          | (value, some rest) =>
            let (fields, tail, rest) := readFields fuel depth false rest
            ((key, value) :: fields, tail, rest)

end

/-- Containers inside each other, at most. -/
def depthLimit : Nat := 127

end Reader

/-- Read a text as far as it is JSON. -/
def DraftText.ofText (text : String) : DraftText :=
  let cs := text.toList
  match Reader.readValue (2 * cs.length + 2) Reader.depthLimit cs with
  | (value, none) => ⟨value, none⟩
  | (value, some rest) =>
    match Reader.skipSpace rest with
    | [] => ⟨value, none⟩
    | _ :: _ => ⟨value, some .trailingText⟩

/-- The value of a text, or its first fault. -/
def ofText (text : String) : Except Fault Json := (DraftText.ofText text).toJson

end RichDoc.Json
