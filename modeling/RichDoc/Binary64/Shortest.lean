import RichDoc.Binary64

/-!
# The fewest decimal digits that identify a number

The real numbers that round to a given binary number form an interval. A decimal inside it reads
back to the number. The text of a number uses the coarsest decimal grid that has a point in the
interval, and of two such points the one nearer to the number, a tie going to the even digit.
Positional notation is used from `10 ^ -5` up to, and not including, `10 ^ 16`.
-/

namespace RichDoc.Binary64

/-- A decimal `digits * 10 ^ exponent`. -/
structure Decimal where
  digits : Nat
  exponent : Int
  deriving DecidableEq, Repr

/-- Compare `a * 10 ^ i` with `n * 2 ^ j`. -/
def compareScaled (a : Nat) (i : Int) (n : Nat) (j : Int) : Ordering :=
  compare (a * Nat.pow 10 i.toNat * Nat.pow 2 (-j).toNat)
    (n * Nat.pow 2 j.toNat * Nat.pow 10 (-i).toNat)

/-- Whether a decimal rounds to the size of `x`. Just below a power of two the neighbours are
closer; the ends of the interval round to the even significand. -/
def readsBack (x : Binary64) (d : Decimal) : Bool :=
  let narrow := x.significand == leastFull && leastExponent < x.exponent
  let low := if narrow then 4 * x.significand - 1 else 4 * x.significand - 2
  let high := 4 * x.significand + 2
  let even := x.significand % 2 == 0
  let fromLow := compareScaled d.digits d.exponent low (x.exponent - 2)
  let fromHigh := compareScaled d.digits d.exponent high (x.exponent - 2)
  (fromLow == .gt || (even && fromLow == .eq)) && (fromHigh == .lt || (even && fromHigh == .eq))

/-- The least `k` with the size of `x` below `10 ^ k`, found by steps from a start that is low. -/
def scaleFrom (x : Binary64) : Nat → Int → Int
  | 0, k => k
  | fuel + 1, k =>
    if compareScaled 1 k x.significand x.exponent == .gt then k else scaleFrom x fuel (k + 1)

/-- The number of digits before the point, which is negative for small numbers. -/
def scale (x : Binary64) : Int :=
  let bits : Int := (x.significand.log2 : Int) + x.exponent
  scaleFrom x 8 (Int.fdiv (bits * 1233) 4096 - 2)

/-- The point of the decimal grid `10 ^ e` that reads back and is nearest, if one does. -/
def onGrid (x : Binary64) (e : Int) : Option Decimal :=
  let num := x.significand * Nat.pow 2 x.exponent.toNat * Nat.pow 10 (-e).toNat
  let den := Nat.pow 2 (-x.exponent).toNat * Nat.pow 10 e.toNat
  let below : Decimal := ⟨num / den, e⟩
  let above : Decimal := ⟨num / den + 1, e⟩
  match x.readsBack below, x.readsBack above with
  | true, true =>
    match compare (2 * (num % den)) den with
    | .lt => some below
    | .gt => some above
    | .eq => some (if below.digits % 2 = 0 then below else above)
  | true, false => some below
  | false, true => some above
  | false, false => none

/-- The first of `count` grids, each ten times finer than the one before, that has a point that
reads back. -/
def search (x : Binary64) : Nat → Int → Option Decimal
  | 0, _ => none
  | count + 1, e =>
    match x.onGrid e with
    | some d => some d
    | none => search x count (e - 1)

/-- The exact decimal value. -/
def exactDecimal (x : Binary64) : Decimal :=
  if 0 ≤ x.exponent then ⟨x.significand * Nat.pow 2 x.exponent.toNat, 0⟩
  else ⟨x.significand * Nat.pow 5 (-x.exponent).toNat, x.exponent⟩

/-- The shortest decimal that identifies a number; seventeen digits suffice. -/
def shortest (x : Binary64) : Decimal :=
  if x.isZero then ⟨0, 0⟩ else (x.search 17 (x.scale - 1)).getD x.exactDecimal

/-- The decimal digits of a number without the zeros at its end. -/
def trimmedDigits (n : Nat) : List Char :=
  ((Nat.toDigits 10 n).reverse.dropWhile (· == '0')).reverse

/-- The text of a number. -/
def text (x : Binary64) : String :=
  let sign := if x.negative then "-" else ""
  if x.isZero then sign ++ "0.0"
  else
    let d := x.shortest
    let all := Nat.toDigits 10 d.digits
    let point : Int := (all.length : Int) + d.exponent
    let digits := trimmedDigits d.digits
    let count : Int := digits.length
    if -5 ≤ point - 1 ∧ point - 1 ≤ 15 then
      if point ≤ 0 then
        sign ++ "0." ++ String.ofList (List.replicate (-point).toNat '0' ++ digits)
      else if count ≤ point then
        sign ++ String.ofList (digits ++ List.replicate (point - count).toNat '0') ++ ".0"
      else
        sign ++ String.ofList (digits.take point.toNat) ++ "." ++
          String.ofList (digits.drop point.toNat)
    else
      let mantissa := match digits with
        | [] => "0"
        | [c] => String.ofList [c]
        | c :: rest => String.ofList (c :: '.' :: rest)
      let e := point - 1
      sign ++ mantissa ++ "e" ++ (if e < 0 then "-" else "+") ++ toString e.natAbs

end RichDoc.Binary64
