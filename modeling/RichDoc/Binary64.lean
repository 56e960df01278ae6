/-!
# Binary floating-point numbers of 64 bits

A finite number is a sign, a significand below `2 ^ 53` and a power of two. Arithmetic is exact
rational arithmetic on natural numbers followed by one rounding, to nearest with ties to the even
significand. There is no infinity: a result that is too large has no value.
-/

namespace RichDoc

/-- A finite number `± significand * 2 ^ exponent`. In canonical form the significand has 53 bits,
or fewer at the least exponent. -/
structure Binary64 where
  negative : Bool
  significand : Nat
  exponent : Int
  deriving DecidableEq, Repr

namespace Binary64

/-- The exponent of the numbers next to zero. -/
def leastExponent : Int := -1074

/-- The exponent of the largest numbers. -/
def greatestExponent : Int := 971

/-- The least significand of 53 bits, `2 ^ 52`. -/
def leastFull : Nat := 0x10000000000000

/-- Each number is written in exactly one way. -/
def IsCanonical (x : Binary64) : Prop :=
  x.significand < 2 * leastFull ∧ leastExponent ≤ x.exponent ∧ x.exponent ≤ greatestExponent ∧
    (leastFull ≤ x.significand ∨ x.exponent = leastExponent)

/-- Zero with a sign. -/
def zero (negative : Bool) : Binary64 := ⟨negative, 0, leastExponent⟩

/-- Both zeros. -/
def isZero (x : Binary64) : Bool := x.significand == 0

/-- Equality of values: the two zeros are one value. -/
def sameValue (x y : Binary64) : Bool := (x.isZero && y.isZero) || x == y

/-- A quotient rounded to the nearest natural number, a tie to the even one. -/
def roundQuotient (num den : Nat) : Nat :=
  let q := num / den
  let r := num % den
  if 2 * r < den then q
  else if den < 2 * r then q + 1
  else if q % 2 = 0 then q else q + 1

/-- `num / den` divided by `2 ^ e`, as a new quotient. -/
def scaled (num den : Nat) (e : Int) : Nat × Nat :=
  if 0 ≤ e then (num, den * Nat.pow 2 e.toNat) else (num * Nat.pow 2 (-e).toNat, den)

/-- The number nearest to `num / den`, or nothing when that is past the largest one. -/
def ofQuotient (negative : Bool) (num den : Nat) : Option Binary64 :=
  if num = 0 then some (zero negative)
  else
    let guess : Int := (num.log2 : Int) - (den.log2 : Int) - 52
    let at0 := scaled num den guess
    let fitted := if at0.1 < leastFull * at0.2 then guess - 1 else guess
    let e := max fitted leastExponent
    let parts := scaled num den e
    let m := roundQuotient parts.1 parts.2
    let x : Binary64 :=
      if m = 2 * leastFull then ⟨negative, leastFull, e + 1⟩ else ⟨negative, m, e⟩
    if greatestExponent < x.exponent then none else some x

/-- The number nearest to a natural number. -/
def ofNat? (n : Nat) : Option Binary64 := ofQuotient false n 1

/-- The size of a number as a quotient. -/
def quotient (x : Binary64) : Nat × Nat :=
  if 0 ≤ x.exponent then (x.significand * Nat.pow 2 x.exponent.toNat, 1)
  else (x.significand, Nat.pow 2 (-x.exponent).toNat)

/-- The product of the sizes, rounded, with the sign of the first factor. -/
def mul? (x y : Binary64) : Option Binary64 :=
  ofQuotient x.negative (x.quotient.1 * y.quotient.1) (x.quotient.2 * y.quotient.2)

/-- The quotient of the sizes, rounded, with the sign of the dividend. -/
def div? (x y : Binary64) : Option Binary64 :=
  ofQuotient x.negative (x.quotient.1 * y.quotient.2) (x.quotient.2 * y.quotient.1)

end Binary64

end RichDoc
