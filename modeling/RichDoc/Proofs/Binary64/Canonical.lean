import RichDoc.Binary64
import Mathlib.Algebra.Order.Field.Power
import Mathlib.Data.Rat.Cast.Order
import Mathlib.Tactic.FieldSimp
import Mathlib.Tactic.Linarith
import Mathlib.Tactic.NormNum
import Mathlib.Tactic.Positivity
import Mathlib.Tactic.Ring

/-!
# Numbers are written in one way

Rounding a quotient gives a number in canonical form, and so do the operations that end with it. Two
canonical numbers stand for one rational number exactly if they are equal, the two zeros apart.
-/

namespace RichDoc.Binary64

/-! ### Rounding a quotient -/

/-- The rounded quotient is the quotient or the number after it. -/
theorem roundQuotient_bounds (num den : Nat) :
    num / den ≤ roundQuotient num den ∧ roundQuotient num den ≤ num / den + 1 := by
  unfold roundQuotient
  dsimp only
  split
  · omega
  · split
    · omega
    · split <;> omega

/-- What is at least a natural number is rounded to no less. -/
theorem le_roundQuotient {num den n : Nat} (hden : 0 < den) (h : n * den ≤ num) :
    n ≤ roundQuotient num den :=
  Nat.le_trans ((Nat.le_div_iff_mul_le hden).mpr h) (roundQuotient_bounds num den).1

/-- What is less than a natural number is rounded to no more. -/
theorem roundQuotient_le {num den n : Nat} (hden : 0 < den) (h : num < n * den) :
    roundQuotient num den ≤ n :=
  Nat.le_trans (roundQuotient_bounds num den).2 ((Nat.div_lt_iff_lt_mul hden).mpr h)

/-! ### Scaling a quotient -/

/-- The value of a quotient divided by a power of two. -/
def ratio (num den : Nat) (e : Int) : ℚ := num / den / 2 ^ e

/-- The scaled quotient has a denominator. -/
theorem scaled_pos {num den : Nat} (hden : 0 < den) (e : Int) : 0 < (scaled num den e).2 := by
  unfold scaled
  split
  · exact Nat.mul_pos hden (Nat.pow_pos (by decide))
  · exact hden

/-- The scaled quotient has the scaled value. -/
theorem ratio_eq {num den : Nat} (hden : 0 < den) (e : Int) :
    ratio num den e = ((scaled num den e).1 : ℚ) / (scaled num den e).2 := by
  have hne : (den : ℚ) ≠ 0 := by exact_mod_cast hden.ne'
  unfold ratio scaled
  split
  · rename_i he
    obtain ⟨n, rfl⟩ := Int.eq_ofNat_of_zero_le he
    rw [Int.toNat_natCast, zpow_natCast, Nat.cast_mul, Nat.pow_eq, Nat.cast_pow, Nat.cast_ofNat,
      div_div]
  · rename_i he
    obtain ⟨n, hn⟩ := Int.eq_ofNat_of_zero_le (Int.le_of_lt (Int.neg_pos.mpr (not_le.mp he)))
    obtain rfl : e = -n := by omega
    rw [neg_neg, Int.toNat_natCast, zpow_neg, zpow_natCast, Nat.cast_mul, Nat.pow_eq, Nat.cast_pow,
      Nat.cast_ofNat, div_inv_eq_mul, div_mul_eq_mul_div]

/-- Comparing with a scaled quotient is comparing with its value. -/
theorem le_ratio_iff {num den : Nat} (hden : 0 < den) (e : Int) (n : Nat) :
    (n : ℚ) ≤ ratio num den e ↔ n * (scaled num den e).2 ≤ (scaled num den e).1 := by
  have hpos : (0 : ℚ) < (scaled num den e).2 := by exact_mod_cast scaled_pos hden e
  rw [ratio_eq hden, le_div_iff₀ hpos]
  exact_mod_cast Iff.rfl

/-- A smaller exponent by one is a value twice as large. -/
theorem ratio_pred (num den : Nat) (e : Int) : ratio num den (e - 1) = 2 * ratio num den e := by
  unfold ratio
  rw [zpow_sub_one₀ two_ne_zero]
  field_simp

/-- A greater exponent is a value that is not larger. -/
theorem ratio_anti (num den : Nat) {e e' : Int} (h : e ≤ e') :
    ratio num den e' ≤ ratio num den e := by
  unfold ratio
  exact div_le_div_of_nonneg_left (by positivity) (zpow_pos two_pos e)
    (zpow_le_zpow_right₀ one_le_two h)

/-- The logarithms of numerator and denominator tell the size of a quotient up to a factor of
two. -/
theorem ratio_guess {num den : Nat} (hnum : num ≠ 0) (hden : den ≠ 0) :
    (leastFull : ℚ) ≤ 2 * ratio num den (num.log2 - den.log2 - 52) ∧
      ratio num den (num.log2 - den.log2 - 52) < 2 * leastFull := by
  have hn : ((2 : ℚ) ^ num.log2 ≤ num) ∧ (num : ℚ) < 2 ^ (num.log2 + 1) := by
    exact_mod_cast And.intro (Nat.log2_self_le hnum) Nat.lt_log2_self
  have hd : ((2 : ℚ) ^ den.log2 ≤ den) ∧ (den : ℚ) < 2 ^ (den.log2 + 1) := by
    exact_mod_cast And.intro (Nat.log2_self_le hden) Nat.lt_log2_self
  have hfull : (leastFull : ℚ) = 2 ^ (52 : Nat) := by norm_num [leastFull]
  have ha : (0 : ℚ) < 2 ^ num.log2 := by positivity
  have hb : (0 : ℚ) < 2 ^ den.log2 := by positivity
  have hpos : (0 : ℚ) < den := hb.trans_le hd.1
  have hvalue : ratio num den (num.log2 - den.log2 - 52) =
      num * 2 ^ den.log2 * leastFull / (den * 2 ^ num.log2) := by
    have hunit : (2 : ℚ) ^ (52 : Int) = 2 ^ (52 : Nat) := zpow_natCast 2 52
    rw [ratio, zpow_sub₀ two_ne_zero, zpow_sub₀ two_ne_zero, hfull, zpow_natCast, zpow_natCast,
      hunit]
    field_simp
  rw [pow_succ] at hn hd
  rw [hvalue]
  constructor
  · rw [← mul_div_assoc, le_div_iff₀ (mul_pos hpos ha)]
    have hmul : (den : ℚ) * 2 ^ num.log2 ≤ 2 ^ den.log2 * 2 * num :=
      mul_le_mul hd.2.le hn.1 ha.le (by positivity)
    calc (leastFull : ℚ) * (den * 2 ^ num.log2)
        ≤ leastFull * (2 ^ den.log2 * 2 * num) := mul_le_mul_of_nonneg_left hmul (by positivity)
      _ = 2 * (num * 2 ^ den.log2 * leastFull) := by ring
  · rw [div_lt_iff₀ (mul_pos hpos ha)]
    have hmul : (num : ℚ) * 2 ^ den.log2 < 2 ^ num.log2 * 2 * den :=
      mul_lt_mul hn.2 hd.1 hb (by positivity)
    calc (num : ℚ) * 2 ^ den.log2 * leastFull
        < 2 ^ num.log2 * 2 * den * leastFull := by
          exact mul_lt_mul_of_pos_right hmul (by rw [hfull]; positivity)
      _ = 2 * leastFull * (den * 2 ^ num.log2) := by ring

/-- One step is enough to fit an exponent that is wrong by a factor of two at most. The quotient
then lies between `2 ^ 52` and `2 ^ 53`. -/
theorem ratio_fitted {num den : Nat} (hden : 0 < den) {guess fitted : Int}
    (hf : fitted = if (scaled num den guess).1 < leastFull * (scaled num den guess).2
      then guess - 1 else guess)
    (h : (leastFull : ℚ) ≤ 2 * ratio num den guess ∧ ratio num den guess < 2 * leastFull) :
    leastFull ≤ ratio num den fitted ∧ ratio num den fitted < 2 * leastFull := by
  rw [hf]
  split
  · rename_i hless
    have hsmall : ratio num den guess < leastFull :=
      lt_of_not_ge fun hle => absurd ((le_ratio_iff hden guess leastFull).mp hle) hless.not_ge
    rw [ratio_pred]
    exact ⟨h.1, by linarith⟩
  · rename_i hless
    exact ⟨(le_ratio_iff hden guess leastFull).mpr (not_lt.mp hless), h.2⟩

/-- With a fitted exponent the rounded significand is full, and with a greater one it is not too
large. -/
theorem roundQuotient_fitted {num den : Nat} (hden : 0 < den) {fitted e : Int}
    (h : (leastFull : ℚ) ≤ ratio num den fitted ∧ ratio num den fitted < 2 * leastFull)
    (he : fitted ≤ e) :
    roundQuotient (scaled num den e).1 (scaled num den e).2 ≤ 2 * leastFull ∧
      (e = fitted → leastFull ≤ roundQuotient (scaled num den e).1 (scaled num den e).2) := by
  have hpos : 0 < (scaled num den e).2 := scaled_pos hden e
  constructor
  · refine roundQuotient_le hpos (lt_of_not_ge fun hle => ?_)
    have hle := (le_ratio_iff hden e (2 * leastFull)).mpr hle
    have hanti := ratio_anti num den he
    push_cast at hle
    linarith
  · rintro rfl
    exact le_roundQuotient hpos ((le_ratio_iff hden e leastFull).mp h.1)

/-! ### Canonical numbers -/

/-- Both zeros are in canonical form. -/
theorem isCanonical_zero (negative : Bool) : (zero negative).IsCanonical :=
  ⟨show 0 < 2 * leastFull by decide, le_rfl, show leastExponent ≤ greatestExponent by decide,
    Or.inr rfl⟩

/-- The nearest number to a quotient is in canonical form. The fitted exponent is one for which the
significand is full, and a greater one is taken only where that one is out of range. -/
theorem ofQuotient_isCanonical {negative : Bool} {num den : Nat} (hden : 0 < den) {x : Binary64}
    (h : ofQuotient negative num den = some x) : x.IsCanonical := by
  unfold ofQuotient at h
  by_cases hnum : num = 0
  · rw [if_pos hnum] at h
    cases h
    exact isCanonical_zero negative
  · rw [if_neg hnum] at h
    dsimp only at h
    generalize hf : (if (scaled num den _).1 < leastFull * (scaled num den _).2 then _ else _ : Int)
      = fitted at h
    have hfit := ratio_fitted hden hf.symm (ratio_guess hnum hden.ne')
    obtain ⟨hm, hlower⟩ := roundQuotient_fitted hden hfit (le_max_left fitted leastExponent)
    have hcase : max fitted leastExponent = fitted ∨ max fitted leastExponent = leastExponent :=
      max_choice fitted leastExponent
    have hleast : leastExponent ≤ max fitted leastExponent := le_max_right fitted leastExponent
    generalize max fitted leastExponent = e at *
    generalize roundQuotient (scaled num den e).1 (scaled num den e).2 = m at *
    have hfull : 0 < leastFull := by decide
    by_cases hcarry : m = 2 * leastFull
    · rw [if_pos hcarry] at h
      split at h
      · cases h
      · rename_i hbound
        cases h
        exact ⟨by dsimp only; omega, by dsimp only; omega, not_lt.mp hbound, Or.inl le_rfl⟩
    · rw [if_neg hcarry] at h
      split at h
      · cases h
      · rename_i hbound
        cases h
        exact ⟨lt_of_le_of_ne hm hcarry, hleast, not_lt.mp hbound, hcase.imp hlower id⟩

/-- The quotient of a number has a denominator. -/
theorem quotient_pos (x : Binary64) : 0 < x.quotient.2 := by
  unfold quotient
  split
  · exact Nat.one_pos
  · exact Nat.pow_pos (by decide)

/-- The nearest number to a natural number is in canonical form. -/
theorem ofNat?_isCanonical {n : Nat} {x : Binary64} (h : ofNat? n = some x) : x.IsCanonical :=
  ofQuotient_isCanonical Nat.one_pos h

/-- A rounded product is in canonical form. -/
theorem mul?_isCanonical {x y z : Binary64} (h : x.mul? y = some z) : z.IsCanonical :=
  ofQuotient_isCanonical (Nat.mul_pos x.quotient_pos y.quotient_pos) h

/-- A rounded quotient of two numbers is in canonical form. -/
theorem div?_isCanonical {x y z : Binary64} (hy : y.significand ≠ 0) (h : x.div? y = some z) :
    z.IsCanonical := by
  refine ofQuotient_isCanonical (Nat.mul_pos x.quotient_pos ?_) h
  unfold quotient
  split
  · exact Nat.mul_pos (Nat.pos_of_ne_zero hy) (Nat.pow_pos (by decide))
  · exact Nat.pos_of_ne_zero hy

/-! ### Equality of values -/

/-- The size of a number. -/
def size (x : Binary64) : ℚ := x.significand * 2 ^ x.exponent

/-- The rational number for which a number stands. -/
def value (x : Binary64) : ℚ := if x.negative then -x.size else x.size

variable {x y : Binary64}

/-- Only the two zeros have the size zero. -/
theorem size_pos (h : x.significand ≠ 0) : 0 < x.size :=
  mul_pos (by exact_mod_cast Nat.pos_of_ne_zero h) (zpow_pos two_pos _)

/-- Of two canonical numbers of one size neither has the smaller exponent, since the significand
beside it would need one bit more than there is room for. -/
theorem IsCanonical.exponent_le (hx : x.IsCanonical) (hy : y.IsCanonical) (h : x.size = y.size) :
    x.exponent ≤ y.exponent := by
  obtain ⟨-, -, -, hfull⟩ := hx
  obtain ⟨hless, hleast, -, -⟩ := hy
  refine not_lt.mp fun hlt => ?_
  have hfull := hfull.resolve_right (by omega)
  have hpow : (2 : ℚ) * 2 ^ y.exponent ≤ 2 ^ x.exponent := by
    rw [mul_comm, ← zpow_add_one₀ two_ne_zero]
    exact zpow_le_zpow_right₀ one_le_two hlt
  have hle : ((2 * x.significand : Nat) : ℚ) * 2 ^ y.exponent ≤ y.significand * 2 ^ y.exponent :=
    calc ((2 * x.significand : Nat) : ℚ) * 2 ^ y.exponent
        = x.significand * (2 * 2 ^ y.exponent) := by push_cast; ring
      _ ≤ x.size := mul_le_mul_of_nonneg_left hpow (Nat.cast_nonneg _)
      _ = y.significand * 2 ^ y.exponent := h
  have hle : 2 * x.significand ≤ y.significand := by
    exact_mod_cast le_of_mul_le_mul_right hle (zpow_pos two_pos _)
  omega

/-- Canonical numbers of one size differ in their sign at most. -/
theorem IsCanonical.eq_of_size (hx : x.IsCanonical) (hy : y.IsCanonical) (h : x.size = y.size) :
    x.significand = y.significand ∧ x.exponent = y.exponent := by
  have hexponent := le_antisymm (hx.exponent_le hy h) (hy.exponent_le hx h.symm)
  rw [size, size, hexponent] at h
  exact ⟨by exact_mod_cast mul_right_cancel₀ (zpow_pos two_pos _).ne' h, hexponent⟩

/-- Two canonical numbers are equal exactly if they stand for one rational number. -/
theorem IsCanonical.sameValue_iff (hx : x.IsCanonical) (hy : y.IsCanonical) :
    x.sameValue y = true ↔ x.value = y.value := by
  have hzero : ∀ z : Binary64, z.significand = 0 → z.value = 0 := fun z hz => by
    rw [value, size, hz, Nat.cast_zero, zero_mul, neg_zero, ite_self]
  have hsign : ∀ z : Binary64, z.significand ≠ 0 → (z.negative = true ↔ z.value < 0) := by
    intro z hz
    have hpos := size_pos hz
    rw [value]
    split
    · exact iff_of_true ‹_› (neg_lt_zero.mpr hpos)
    · exact iff_of_false ‹_› hpos.not_gt
  have hsize : ∀ z : Binary64, |z.value| = z.size := fun z => by
    have hnonneg : 0 ≤ z.size := mul_nonneg (Nat.cast_nonneg _) (zpow_pos two_pos _).le
    rw [value]
    split
    · rw [abs_neg, abs_of_nonneg hnonneg]
    · exact abs_of_nonneg hnonneg
  simp only [sameValue, isZero, Bool.or_eq_true, Bool.and_eq_true, beq_iff_eq]
  constructor
  · rintro (⟨hzx, hzy⟩ | rfl)
    · rw [hzero x hzx, hzero y hzy]
    · rfl
  · intro h
    obtain ⟨hsignificand, hexponent⟩ := hx.eq_of_size hy (by rw [← hsize x, ← hsize y, h])
    by_cases hz : x.significand = 0
    · exact Or.inl ⟨hz, hsignificand ▸ hz⟩
    · have hnegative : x.negative = y.negative := Bool.eq_iff_iff.mpr
        ((hsign x hz).trans (h ▸ (hsign y (hsignificand ▸ hz)).symm))
      obtain ⟨_, _, _⟩ := x
      obtain ⟨_, _, _⟩ := y
      cases hsignificand
      cases hexponent
      cases hnegative
      exact Or.inr rfl

end RichDoc.Binary64
