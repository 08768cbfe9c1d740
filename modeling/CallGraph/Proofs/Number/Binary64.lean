import CallGraph.Number.Decimal
import Mathlib.Algebra.Order.Field.Power
import Mathlib.Data.Int.Log
import Mathlib.Data.Rat.Floor
import Mathlib.Tactic.FieldSimp
import Mathlib.Tactic.Linarith
import Mathlib.Tactic.NormNum
import Mathlib.Tactic.Positivity
import Mathlib.Tactic.Ring

/-!
# Rounding to the format

A quotient is rounded by its numerator and denominator, and what comes out depends on its value alone. The exponent
of the last bit follows from the logarithm, the bits in front of it from the quotient on that scale. A number of
the format has no bits behind them, so that it is left alone; too large a quotient overflows, and one of less
than half the last bit is lost.
-/

namespace CallGraph.Number

/-! ### The scale -/

theorem scaleDown_snd_pos {den : Nat} (hden : 0 < den) (num : Nat) (exponent : Int) :
    0 < (scaleDown num den exponent).2 := by
  unfold scaleDown
  split
  · exact Nat.mul_pos hden (Nat.pow_pos two_pos)
  · exact hden

theorem cast_scaleDown (num den : Nat) (exponent : Int) :
    ((scaleDown num den exponent).1 : Rat) / (scaleDown num den exponent).2 = num / den / 2 ^ exponent := by
  unfold scaleDown
  split
  · next hsign =>
    obtain ⟨k, rfl⟩ := Int.eq_ofNat_of_zero_le hsign
    simp [div_div]
  · next hsign =>
    obtain ⟨k, hk⟩ := Int.eq_ofNat_of_zero_le (by omega : 0 ≤ -exponent)
    obtain rfl : exponent = -(k : Int) := by omega
    simp [div_mul_eq_mul_div]

theorem scaleDown_mul_left (k num den : Nat) (exponent : Int) :
    scaleDown (k * num) (k * den) exponent =
      (k * (scaleDown num den exponent).1, k * (scaleDown num den exponent).2) := by
  unfold scaleDown
  split <;> simp only [Nat.mul_assoc]

theorem dyadic_eq (significand : Nat) (exponent : Int) :
    dyadic significand exponent = significand * 2 ^ exponent := by
  unfold dyadic
  split
  · next hsign =>
    obtain ⟨k, rfl⟩ := Int.eq_ofNat_of_zero_le hsign
    simp
  · next hsign =>
    obtain ⟨k, hk⟩ := Int.eq_ofNat_of_zero_le (by omega : 0 ≤ -exponent)
    obtain rfl : exponent = -(k : Int) := by omega
    simp [Rat.mkRat_eq_div, div_eq_mul_inv]

/-! ### The nearest integer -/

theorem roundHalfEven_eq_or (num den : Nat) :
    roundHalfEven num den = num / den ∨ roundHalfEven num den = num / den + 1 := by
  unfold roundHalfEven
  dsimp only
  split
  · exact .inl rfl
  · split <;> omega

theorem le_roundHalfEven (num den : Nat) : num / den ≤ roundHalfEven num den := by
  have := roundHalfEven_eq_or num den
  omega

theorem roundHalfEven_mul {den : Nat} (hden : 0 < den) (quotient : Nat) :
    roundHalfEven (quotient * den) den = quotient := by
  simp [roundHalfEven, hden]

theorem roundHalfEven_mul_left {k : Nat} (hk : 0 < k) (num den : Nat) :
    roundHalfEven (k * num) (k * den) = roundHalfEven num den := by
  have hrest : 2 * (k * num % (k * den)) = k * (2 * (num % den)) := by
    rw [Nat.mul_mod_mul_left, Nat.mul_left_comm]
  unfold roundHalfEven
  simp only [hrest, Nat.mul_div_mul_left _ _ hk, Nat.mul_lt_mul_left hk]

/-! ### The highest bit -/

theorem floorLog2_eq_log {num den : Nat} (hnum : 0 < num) (hden : 0 < den) :
    floorLog2 num den = Int.log 2 ((num : Rat) / den) := by
  have hquotient : (0 : Rat) < (num : Rat) / den := by positivity
  -- The guess is too high by one at most.
  have hguess : Int.log 2 ((num : Rat) / den) < num.log2 - den.log2 + 1 ∧
      (num.log2 - den.log2 - 1 : Int) ≤ Int.log 2 ((num : Rat) / den) := by
    have hnumLow : (2 : Rat) ^ num.log2 ≤ num := by exact_mod_cast Nat.log2_self_le hnum.ne'
    have hnumHigh : (num : Rat) < 2 ^ (num.log2 + 1) := by exact_mod_cast Nat.lt_log2_self
    have hdenLow : (2 : Rat) ^ den.log2 ≤ den := by exact_mod_cast Nat.log2_self_le hden.ne'
    have hdenHigh : (den : Rat) < 2 ^ (den.log2 + 1) := by exact_mod_cast Nat.lt_log2_self
    constructor
    · rw [← Int.lt_zpow_iff_log_lt one_lt_two hquotient, Nat.cast_ofNat, div_lt_iff₀ (by positivity)]
      calc (num : Rat) < 2 ^ (num.log2 + 1) := hnumHigh
        _ = 2 ^ ((num.log2 : Int) - den.log2 + 1) * 2 ^ den.log2 := by
          rw [← zpow_natCast, ← zpow_natCast, ← zpow_add₀ two_ne_zero]
          congr 1
          push_cast
          ring
        _ ≤ 2 ^ ((num.log2 : Int) - den.log2 + 1) * den := by gcongr
    · rw [← Int.zpow_le_iff_le_log one_lt_two hquotient, Nat.cast_ofNat, le_div_iff₀ (by positivity)]
      calc (2 : Rat) ^ ((num.log2 : Int) - den.log2 - 1) * den
          ≤ 2 ^ ((num.log2 : Int) - den.log2 - 1) * 2 ^ (den.log2 + 1) := by gcongr
        _ = 2 ^ num.log2 := by
          rw [← zpow_natCast, ← zpow_natCast, ← zpow_add₀ two_ne_zero]
          congr 1
          push_cast
          ring
        _ ≤ num := hnumLow
  -- The comparison tells whether it is.
  have hcompare : (scaleDown num den (num.log2 - den.log2)).2 ≤ (scaleDown num den (num.log2 - den.log2)).1 ↔
      (num.log2 - den.log2 : Int) ≤ Int.log 2 ((num : Rat) / den) := by
    have hpositive : (0 : Rat) < (scaleDown num den (num.log2 - den.log2)).2 := by
      exact_mod_cast scaleDown_snd_pos hden _ _
    rw [← Int.zpow_le_iff_le_log one_lt_two hquotient, Nat.cast_ofNat, ← Nat.cast_le (α := Rat),
      ← one_le_div hpositive, cast_scaleDown, one_le_div (by positivity)]
  unfold floorLog2
  dsimp only
  split
  · next hle =>
    have := hcompare.1 hle
    omega
  · next hnot =>
    have := mt hcompare.2 hnot
    omega

/-- What a positive quotient is rounded to, before it is found to be too large or not. -/
def roundedValue (num den : Nat) : Rat :=
  dyadic (roundHalfEven (scaleDown num den (lastBitExponent num den)).1
    (scaleDown num den (lastBitExponent num den)).2) (lastBitExponent num den)

theorem nearestQuotient_of_pos {num : Nat} (hnum : 0 < num) (den : Nat) :
    nearestQuotient num den =
      if roundedValue num den < overflowBound then .finite (roundedValue num den)
      else .infinite false :=
  if_neg hnum.ne'

/-! ### The value decides -/

theorem nearestQuotient_mul_left {k : Nat} (hk : 0 < k) (num : Nat) {den : Nat} (hden : 0 < den) :
    nearestQuotient (k * num) (k * den) = nearestQuotient num den := by
  rcases Nat.eq_zero_or_pos num with rfl | hnum
  · rfl
  have hlog : floorLog2 (k * num) (k * den) = floorLog2 num den := by
    rw [floorLog2_eq_log (Nat.mul_pos hk hnum) (Nat.mul_pos hk hden), floorLog2_eq_log hnum hden, Nat.cast_mul,
      Nat.cast_mul, mul_div_mul_left _ _ (Nat.cast_ne_zero.2 hk.ne')]
  have hvalue : roundedValue (k * num) (k * den) = roundedValue num den := by
    simp only [roundedValue, lastBitExponent, hlog, scaleDown_mul_left, roundHalfEven_mul_left hk]
  rw [nearestQuotient_of_pos (Nat.mul_pos hk hnum), nearestQuotient_of_pos hnum, hvalue]

theorem nearest_of_nonneg {value : Rat} (hvalue : 0 ≤ value) :
    nearest value = nearestQuotient value.num.natAbs value.den :=
  if_neg (not_lt.2 hvalue)

theorem cast_natAbs_num {value : Rat} (hvalue : 0 ≤ value) : (value.num.natAbs : Rat) = value * value.den := by
  rw [Rat.mul_den_eq_num, Nat.cast_natAbs, abs_of_nonneg (Rat.num_nonneg.2 hvalue)]

theorem nearestQuotient_eq_nearest (num : Nat) {den : Nat} (hden : 0 < den) :
    nearestQuotient num den = nearest ((num : Rat) / den) := by
  have hvalue : (0 : Rat) ≤ (num : Rat) / den := by positivity
  have hsame : den * ((num : Rat) / den).num.natAbs = ((num : Rat) / den).den * num := by
    rw [← Nat.cast_inj (R := Rat), Nat.cast_mul, Nat.cast_mul, cast_natAbs_num hvalue]
    field_simp
  rw [nearest_of_nonneg hvalue, ← nearestQuotient_mul_left hden _ (Rat.den_pos _), hsame, Nat.mul_comm den,
    nearestQuotient_mul_left (Rat.den_pos _) _ hden]

theorem nearest_neg {value : Rat} (hvalue : 0 < value) : nearest (-value) = (nearest value).neg := by
  rw [nearest_of_nonneg hvalue.le, nearest, if_pos (neg_neg_of_pos hvalue), Rat.neg_num, Int.natAbs_neg,
    Rat.neg_den]

/-! ### Numbers of the format -/

/-- The value has a significand of at most 53 bits, and its last bit is one of those that the format has. -/
def IsBinary64 (value : Rat) : Prop :=
  ∃ (significand : Nat) (exponent : Int), significand < 2 ^ 53 ∧ -1074 ≤ exponent ∧ exponent ≤ 971 ∧
    |value| = significand * 2 ^ exponent

theorem IsBinary64.neg {value : Rat} (h : IsBinary64 value) : IsBinary64 (-value) := by
  obtain ⟨significand, exponent, hsignificand, hlow, hhigh, hvalue⟩ := h
  exact ⟨significand, exponent, hsignificand, hlow, hhigh, by rw [abs_neg, hvalue]⟩

theorem overflowBound_eq : overflowBound = 2 ^ ((1024 : Nat) : Int) := by
  rw [zpow_natCast]
  simp only [overflowBound, Nat.pow_eq, Nat.cast_pow, Nat.cast_ofNat]

/-- What the format holds on a scale is an integer there, and rounding leaves it alone. -/
theorem roundedValue_eq {num den significand : Nat} {exponent : Int} (hnum : 0 < num) (hden : 0 < den)
    (hsignificand : significand < 2 ^ 53) (hlow : -1074 ≤ exponent)
    (hvalue : (num : Rat) / den = significand * 2 ^ exponent) :
    roundedValue num den = (num : Rat) / den := by
  have hquotient : (0 : Rat) < (num : Rat) / den := by positivity
  have hscale : lastBitExponent num den ≤ exponent := by
    have hbound : (num : Rat) / den < 2 ^ (53 + exponent) := by
      rw [hvalue, zpow_add₀ two_ne_zero]
      gcongr
      exact_mod_cast hsignificand
    have hlog := (Int.lt_zpow_iff_log_lt one_lt_two hquotient).1 (by exact_mod_cast hbound)
    rw [lastBitExponent, floorLog2_eq_log hnum hden]
    omega
  unfold roundedValue
  generalize lastBitExponent num den = last at hscale
  obtain ⟨k, rfl⟩ := Int.le.dest hscale
  have hpositive : (0 : Rat) < (scaleDown num den last).2 := by exact_mod_cast scaleDown_snd_pos hden _ _
  have hinteger : (scaleDown num den last).1 = significand * 2 ^ k * (scaleDown num den last).2 := by
    rw [← Nat.cast_inj (R := Rat), Nat.cast_mul, ← div_eq_iff hpositive.ne', cast_scaleDown, hvalue,
      zpow_add₀ two_ne_zero]
    field_simp
    push_cast
    rw [zpow_natCast]
  rw [hinteger, roundHalfEven_mul (scaleDown_snd_pos hden _ _), dyadic_eq, hvalue, zpow_add₀ two_ne_zero]
  push_cast
  rw [zpow_natCast]
  ring

theorem natAbs_num_div_den {value : Rat} (hvalue : 0 ≤ value) :
    (value.num.natAbs : Rat) / value.den = value := by
  rw [cast_natAbs_num hvalue]
  field_simp

theorem nearest_of_pos {value : Rat} (hvalue : 0 < value) :
    nearest value = if roundedValue value.num.natAbs value.den < overflowBound then
      .finite (roundedValue value.num.natAbs value.den) else .infinite false := by
  rw [nearest_of_nonneg hvalue.le, nearestQuotient_of_pos (Int.natAbs_pos.2 (Rat.num_pos.2 hvalue).ne')]

theorem nearest_of_isBinary64 {value : Rat} (h : IsBinary64 value) : nearest value = .finite value := by
  have hpositive {value : Rat} (hvalue : 0 < value) (h : IsBinary64 value) : nearest value = .finite value := by
    obtain ⟨significand, exponent, hsignificand, hlow, hhigh, habs⟩ := h
    rw [abs_of_pos hvalue] at habs
    have hrounded : roundedValue value.num.natAbs value.den = value := by
      have hquotient := natAbs_num_div_den hvalue.le
      have hnum := Int.natAbs_pos.2 (Rat.num_pos.2 hvalue).ne'
      rw [roundedValue_eq hnum (Rat.den_pos _) hsignificand hlow (hquotient.trans habs), hquotient]
    have hfits : value < overflowBound := by
      rw [habs, overflowBound_eq]
      calc (significand : Rat) * 2 ^ exponent < 2 ^ 53 * 2 ^ exponent := by
            gcongr
            exact_mod_cast hsignificand
        _ = 2 ^ (((53 : Nat) : Int) + exponent) := by rw [zpow_add₀ two_ne_zero, zpow_natCast]
        _ ≤ 2 ^ ((1024 : Nat) : Int) := zpow_le_zpow_right₀ one_le_two (by omega)
    rw [nearest_of_pos hvalue, hrounded, if_pos hfits]
  rcases lt_trichotomy value 0 with hsign | rfl | hsign
  · have hopposite := nearest_neg (neg_pos.2 hsign)
    rw [hpositive (neg_pos.2 hsign) h.neg, neg_neg, neg, neg_neg] at hopposite
    exact hopposite
  · rfl
  · exact hpositive hsign h

/-! ### Outside the format -/

/-- The highest bit of a value is never lost, unless it stands behind the last one of the format. -/
theorem zpow_log_le_roundedValue {value : Rat} (hvalue : 0 < value) (hlog : -1022 ≤ Int.log 2 value) :
    2 ^ Int.log 2 value ≤ roundedValue value.num.natAbs value.den := by
  have hnum : 0 < value.num.natAbs := Int.natAbs_pos.2 (Rat.num_pos.2 hvalue).ne'
  have hlast : lastBitExponent value.num.natAbs value.den = Int.log 2 value - 52 := by
    rw [lastBitExponent, floorLog2_eq_log hnum (Rat.den_pos _), natAbs_num_div_den hvalue.le]
    omega
  have hbits : ((2 ^ 52 : Nat) : Rat) * 2 ^ (Int.log 2 value - 52) = 2 ^ Int.log 2 value := by
    rw [Nat.cast_pow, Nat.cast_ofNat, ← zpow_natCast, ← zpow_add₀ two_ne_zero]
    congr 1
    push_cast
    ring
  have hden := scaleDown_snd_pos value.den_pos value.num.natAbs (Int.log 2 value - 52)
  have hscale := cast_scaleDown value.num.natAbs value.den (Int.log 2 value - 52)
  rw [natAbs_num_div_den hvalue.le] at hscale
  rw [roundedValue, hlast, dyadic_eq, ← hbits]
  generalize scaleDown value.num.natAbs value.den (Int.log 2 value - 52) = scaled at hden hscale
  have hfloor : 2 ^ 52 ≤ scaled.1 / scaled.2 := by
    rw [Nat.le_div_iff_mul_le hden, ← Nat.cast_le (α := Rat), Nat.cast_mul,
      ← le_div_iff₀ (by exact_mod_cast hden), hscale, le_div_iff₀ (by positivity), hbits]
    exact_mod_cast Int.zpow_log_le_self one_lt_two hvalue
  gcongr
  exact hfloor.trans (le_roundHalfEven _ _)

theorem nearest_of_large {value : Rat} (h : overflowBound ≤ value) : nearest value = .infinite false := by
  rw [overflowBound_eq] at h
  have hpositive : 0 < value := lt_of_lt_of_le (zpow_pos two_pos _) h
  have hlog : ((1024 : Nat) : Int) ≤ Int.log 2 value :=
    (Int.zpow_le_iff_le_log one_lt_two hpositive).1 (by rwa [Nat.cast_ofNat (R := Rat)])
  have hlarge : overflowBound ≤ roundedValue value.num.natAbs value.den := by
    rw [overflowBound_eq]
    exact (zpow_le_zpow_right₀ one_le_two hlog).trans (zpow_log_le_roundedValue hpositive (by omega))
  rw [nearest_of_pos hpositive, if_neg (not_lt.2 hlarge)]

/-- A value of less than half the last bit of the format is rounded to nothing. -/
theorem nearest_of_small {value : Rat} (hsign : 0 ≤ value) (h : value < 2 ^ (-1075 : Int)) :
    nearest value = .finite 0 := by
  rcases hsign.eq_or_lt with rfl | hpositive
  · rfl
  have hnum : 0 < value.num.natAbs := Int.natAbs_pos.2 (Rat.num_pos.2 hpositive).ne'
  have hlog : Int.log 2 value < -1075 :=
    (Int.lt_zpow_iff_log_lt one_lt_two hpositive).1 (by rwa [Nat.cast_ofNat (R := Rat)])
  have hlast : lastBitExponent value.num.natAbs value.den = -1074 := by
    rw [lastBitExponent, floorLog2_eq_log hnum (Rat.den_pos _), natAbs_num_div_den hsign]
    omega
  have hden := scaleDown_snd_pos value.den_pos value.num.natAbs (-1074)
  have hscale := cast_scaleDown value.num.natAbs value.den (-1074)
  rw [natAbs_num_div_den hsign] at hscale
  have hrounded : roundedValue value.num.natAbs value.den = 0 := by
    rw [roundedValue, hlast, dyadic_eq]
    generalize scaleDown value.num.natAbs value.den (-1074) = scaled at hden hscale
    have hhalf : 2 * scaled.1 < scaled.2 := by
      have hratio : (scaled.1 : Rat) / scaled.2 < 2 ^ (-1 : Int) := by
        rw [hscale, div_lt_iff₀ (by positivity), ← zpow_add₀ two_ne_zero]
        exact h
      rw [div_lt_iff₀ (by exact_mod_cast hden), zpow_neg_one] at hratio
      rw [← Nat.cast_lt (α := Rat), Nat.cast_mul, Nat.cast_ofNat]
      linarith only [hratio]
    have hnone : roundHalfEven scaled.1 scaled.2 = 0 := by
      have hless : scaled.1 < scaled.2 := by omega
      rw [roundHalfEven]
      simp only [Nat.mod_eq_of_lt hless, if_pos hhalf, Nat.div_eq_of_lt hless]
    rw [hnone, Nat.cast_zero, zero_mul]
  rw [nearest_of_pos hpositive, hrounded, if_pos]
  rw [overflowBound_eq]
  positivity

end CallGraph.Number
