import CallGraph.Proofs.Number.Binary64
import Mathlib.Data.Nat.Prime.Basic

/-!
# Digits that read back

A numeral is read as the number nearest to its value, and the digits that are written for a number of the format
are such that this is the number itself. They are looked for by reading them, and where zeros at their end are
dropped their value stays; were none found, all digits of the number would be taken, which are its exact value.
-/

namespace CallGraph

namespace Decimal

/-! ### Numerals -/

theorem magnitude_eq_nearest (digits : Nat) (scale : Int) :
    magnitude digits scale = Number.nearest (digits * 10 ^ scale) := by
  unfold magnitude
  split
  · next hsign =>
    obtain ⟨k, rfl⟩ := Int.eq_ofNat_of_zero_le hsign
    rw [Number.nearestQuotient_eq_nearest _ Nat.one_pos]
    simp
  · next hsign =>
    obtain ⟨k, hk⟩ := Int.eq_ofNat_of_zero_le (by omega : 0 ≤ -scale)
    obtain rfl : scale = -(k : Int) := by omega
    rw [Nat.pow_eq, Number.nearestQuotient_eq_nearest _ (Nat.pow_pos (by decide))]
    simp [div_eq_mul_inv]

theorem lt_pow_length_decimalDigits (n : Nat) : n < 10 ^ (decimalDigits n).length :=
  (Nat.length_toDigits_le_iff (by decide) (List.length_pos_iff.2 Nat.toDigits_ne_nil)).1 (Nat.le_refl _)

theorem pow_length_decimalDigits_le {n : Nat} (hn : n ≠ 0) : 10 ^ ((decimalDigits n).length - 1) ≤ n := by
  by_contra hless
  rcases Nat.eq_zero_or_pos ((decimalDigits n).length - 1) with hone | hmore
  · rw [hone] at hless
    omega
  · have hlength := (Nat.length_toDigits_le_iff (by decide) hmore).2 (not_le.1 hless)
    rw [decimalDigits] at hlength hmore
    omega

/-- Three bits are less than a digit. -/
theorem two_zpow_le_ten_zpow (places : Nat) : (2 : Rat) ^ (3 * (places : Int)) ≤ 10 ^ (places : Int) := by
  rw [zpow_mul, zpow_natCast, zpow_natCast]
  gcongr
  norm_num

/-- The test of the length alone decides as rounding does. -/
theorem toNumber_eq {digits : Nat} {scale : Int} {value : Rat}
    (h : Number.nearest (digits * 10 ^ scale) = .finite value) (negative : Bool) :
    (⟨negative, digits, scale⟩ : Decimal).toNumber = .finite (if negative then -value else value) := by
  have hsign : ∀ number : Number, number = .finite value →
      (if negative then number.neg else number) = .finite (if negative then -value else value) := by
    rintro _ rfl
    cases negative <;> rfl
  unfold toNumber
  dsimp only
  apply hsign
  split
  · next hzero =>
    rwa [hzero, Nat.cast_zero, zero_mul] at h
  next hdigits =>
  have hlow : (10 : Rat) ^ ((decimalDigits digits).length - 1 + scale) ≤ digits * 10 ^ scale := by
    have hlength : 1 ≤ (decimalDigits digits).length := List.length_pos_iff.2 Nat.toDigits_ne_nil
    rw [zpow_add₀ (by norm_num), ← Nat.cast_one, ← Nat.cast_sub hlength, zpow_natCast]
    gcongr
    exact_mod_cast pow_length_decimalDigits_le hdigits
  have hhigh : digits * (10 : Rat) ^ scale < 10 ^ ((decimalDigits digits).length + scale) := by
    rw [zpow_add₀ (by norm_num), zpow_natCast]
    gcongr
    exact_mod_cast lt_pow_length_decimalDigits digits
  split
  · next hlarge =>
    have hbound : Number.overflowBound ≤ digits * 10 ^ scale := by
      calc Number.overflowBound = 2 ^ ((1024 : Nat) : Int) := Number.overflowBound_eq
        _ ≤ 2 ^ (3 * ((400 : Nat) : Int)) := zpow_le_zpow_right₀ one_le_two (by omega)
        _ ≤ 10 ^ ((400 : Nat) : Int) := two_zpow_le_ten_zpow 400
        _ ≤ 10 ^ ((decimalDigits digits).length - 1 + scale) := zpow_le_zpow_right₀ (by norm_num) (by omega)
        _ ≤ digits * 10 ^ scale := hlow
    rwa [Number.nearest_of_large hbound] at h
  split
  · next hsmall =>
    have hbound : digits * (10 : Rat) ^ scale < 2 ^ (-1075 : Int) := by
      calc digits * (10 : Rat) ^ scale < 10 ^ ((decimalDigits digits).length + scale) := hhigh
        _ ≤ 10 ^ (-((400 : Nat) : Int)) := zpow_le_zpow_right₀ (by norm_num) (by omega)
        _ ≤ 2 ^ (-(3 * ((400 : Nat) : Int))) := by
          rw [zpow_neg, zpow_neg]
          exact inv_anti₀ (by positivity) (two_zpow_le_ten_zpow 400)
        _ ≤ 2 ^ (-1075 : Int) := zpow_le_zpow_right₀ one_le_two (by omega)
    rwa [Number.nearest_of_small (by positivity) hbound] at h
  · rwa [magnitude_eq_nearest]

end Decimal

namespace Number

/-! ### The digits that are written -/

theorem nearest_of_readingBack? {value : Rat} {exponent : Int} {digits : Nat}
    (h : readingBack? value exponent = some digits) : nearest (digits * 10 ^ exponent) = .finite value := by
  rw [← Decimal.magnitude_eq_nearest]
  unfold readingBack? at h
  dsimp only at h
  split at h
  · next hlow hhigh =>
    rw [beq_iff_eq] at hlow hhigh
    obtain rfl := Option.some.inj h
    rcases roundHalfEven_eq_or (scaleDownTen value.num.natAbs value.den exponent).1
      (scaleDownTen value.num.natAbs value.den exponent).2 with hround | hround
    · rw [hround, hlow]
    · rw [hround, hhigh]
  · next hlow _ =>
    obtain rfl := Option.some.inj h
    exact beq_iff_eq.1 hlow
  · next _ hhigh =>
    obtain rfl := Option.some.inj h
    exact beq_iff_eq.1 hhigh
  · cases h

theorem trimZeros_eq (fuel digits : Nat) (exponent : Int) :
    ((trimZeros fuel digits exponent).1 : Rat) * 10 ^ (trimZeros fuel digits exponent).2 =
      digits * 10 ^ exponent := by
  induction fuel generalizing digits exponent with
  | zero => rfl
  | succ fuel ih =>
    rw [trimZeros]
    split
    · next hzero =>
      simp only [Bool.and_eq_true, decide_eq_true_eq] at hzero
      obtain ⟨quotient, rfl⟩ := Nat.dvd_of_mod_eq_zero hzero.1
      rw [ih, Nat.mul_div_cancel_left _ (by decide), zpow_add_one₀ (by norm_num)]
      push_cast
      ring
    · rfl

theorem IsBinary64.den_eq {value : Rat} (h : IsBinary64 value) : value.den = 2 ^ value.den.log2 := by
  obtain ⟨significand, exponent, -, hlow, -, hvalue⟩ := h
  obtain ⟨k, hk⟩ : ∃ k : Nat, (k : Int) = 1074 := ⟨1074, rfl⟩
  obtain ⟨shift, hshift⟩ := Int.eq_ofNat_of_zero_le (by omega : 0 ≤ exponent + k)
  have hquotient : |value| = ((significand * 2 ^ shift : Int) : Rat) / ((2 ^ k : Int) : Rat) := by
    obtain rfl : exponent = shift - k := by omega
    rw [hvalue, zpow_sub₀ two_ne_zero, zpow_natCast, zpow_natCast]
    push_cast
    ring
  have hdvd : value.den ∣ 2 ^ k := by
    have hden := Rat.den_dvd (significand * 2 ^ shift) (2 ^ k)
    rw [Rat.divInt_eq_div, ← hquotient, Rat.den_abs_eq_den] at hden
    exact_mod_cast hden
  obtain ⟨places, -, hplaces⟩ := (Nat.dvd_prime_pow Nat.prime_two).1 hdvd
  rw [hplaces, Nat.log2_two_pow]

theorem allDigits_eq {value : Rat} (hvalue : 0 < value) (h : IsBinary64 value) :
    ((allDigits value).1 : Rat) * 10 ^ (allDigits value).2 = value := by
  have hten : (10 : Rat) ^ value.den.log2 = 5 ^ value.den.log2 * value.den := by
    have hcast : (value.den : Rat) = 2 ^ value.den.log2 := by
      conv_lhs => rw [h.den_eq]
      rw [Nat.cast_pow, Nat.cast_ofNat]
    rw [hcast, ← mul_pow]
    norm_num
  have hden : (value.den : Rat) ≠ 0 := Nat.cast_ne_zero.2 value.den_ne_zero
  rw [allDigits]
  dsimp only
  rw [zpow_neg, zpow_natCast, hten, Nat.cast_mul, cast_natAbs_num hvalue.le, Nat.pow_eq]
  push_cast
  field_simp

theorem nearest_shortest {value : Rat} (hvalue : 0 < value) (h : IsBinary64 value) :
    nearest ((shortest value).1 * 10 ^ (shortest value).2) = .finite value := by
  unfold shortest
  dsimp only
  split
  · next hfound =>
    obtain ⟨k, -, hk⟩ := List.exists_of_findSome?_eq_some hfound
    obtain ⟨digits, hread, hpair⟩ := Option.map_eq_some_iff.1 hk
    cases hpair
    rw [trimZeros_eq, nearest_of_readingBack? hread]
  · rw [allDigits_eq hvalue h, nearest_of_isBinary64 h]

end Number

end CallGraph
