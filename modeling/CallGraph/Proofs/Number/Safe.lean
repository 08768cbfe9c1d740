import CallGraph.Number.Hex
import CallGraph.Proofs.Number.Binary64

/-!
# Integers that are exact

Up to `2 ^ 53 - 1` every integer is a number of its own and is not rounded. Beyond that bound reading
never leads back below it, so that a number within the bound is always the one that was written.
-/

namespace CallGraph

namespace Number

@[simp] theorem toInt?_ofNat (n : Nat) : (ofNat n).toInt? = some (n : Int) := by
  simp [ofNat, toInt?]

@[simp] theorem less_ofNat (m n : Nat) : (ofNat m).less (ofNat n) = decide (m < n) := by
  simp [ofNat, less]

/-! ### Rounding a natural number -/

theorem nearestQuotient_one (n : Nat) : nearestQuotient n 1 = nearest n := by
  rw [nearestQuotient_eq_nearest n Nat.one_pos, Nat.cast_one, div_one]

/-- A natural number that the format holds: at most 53 bits, with at most 971 zeros behind them. -/
def IsRepresentable (n : Nat) : Prop :=
  ∃ significand exponent, significand < 2 ^ 53 ∧ exponent ≤ 971 ∧ n = significand * 2 ^ exponent

theorem isRepresentable_of_le {n : Nat} (hn : n ≤ maxSafe) : IsRepresentable n :=
  ⟨n, 0, lt_of_le_of_lt hn (by decide), by omega, by omega⟩

theorem IsRepresentable.isBinary64 {n : Nat} (h : IsRepresentable n) : IsBinary64 n := by
  obtain ⟨significand, exponent, hsignificand, hexponent, rfl⟩ := h
  refine ⟨significand, exponent, hsignificand, by omega, by omega, ?_⟩
  rw [abs_of_nonneg (Nat.cast_nonneg _), Nat.cast_mul, Nat.cast_pow, Nat.cast_ofNat, zpow_natCast]

/-- Rounding leaves alone what the format holds. -/
theorem nearestQuotient_of_isRepresentable {n : Nat} (h : IsRepresentable n) :
    nearestQuotient n 1 = ofNat n := by
  rw [nearestQuotient_one, nearest_of_isBinary64 h.isBinary64, ofNat]

/-- An integer within the bound has no bits to lose. -/
theorem nearestQuotient_of_le {n : Nat} (hn : n ≤ maxSafe) : nearestQuotient n 1 = ofNat n :=
  nearestQuotient_of_isRepresentable (isRepresentable_of_le hn)

/-- Counts add up exactly as long as their sum is within the bound. -/
theorem add_ofNat {a b : Nat} (h : a + b ≤ maxSafe) : (ofNat a).add (ofNat b) = ofNat (a + b) := by
  show nearest ((a : Rat) + b) = ofNat (a + b)
  rw [← Nat.cast_add, ← nearestQuotient_one, nearestQuotient_of_le h]

/-- Rounding an integer beyond the bound stays beyond it, as its highest bit is not lost. -/
theorem maxSafe_less_nearestQuotient {n : Nat} (hn : maxSafe < n) :
    (ofNat maxSafe).less (nearestQuotient n 1) = true := by
  have hpositive : (0 : Rat) < n := by exact_mod_cast lt_of_le_of_lt (Nat.zero_le _) hn
  have hlog : 53 ≤ Int.log 2 (n : Rat) := by
    rw [← Int.zpow_le_iff_le_log one_lt_two hpositive]
    exact_mod_cast (hn : 2 ^ 53 ≤ n)
  have hvalue : (maxSafe : Rat) < roundedValue (n : Rat).num.natAbs (n : Rat).den := by
    calc (maxSafe : Rat) < 2 ^ (53 : Int) := by exact_mod_cast (by decide : maxSafe < 2 ^ 53)
      _ ≤ 2 ^ Int.log 2 (n : Rat) := zpow_le_zpow_right₀ one_le_two hlog
      _ ≤ _ := zpow_log_le_roundedValue hpositive (by omega)
  rw [nearestQuotient_one, nearest_of_pos hpositive]
  split
  · simpa [ofNat, less] using hvalue
  · rfl

end Number

/-! ### Digits of a natural number -/

theorem isDigit_of_mem_decimalDigits {n : Nat} {c : Char} (hc : c ∈ decimalDigits n) :
    c.isDigit = true :=
  Nat.isDigit_of_mem_toDigits (by decide) (by decide) hc

theorem decimalDigits_zero_cons {n : Nat} {rest : List Char} (h : decimalDigits n = '0' :: rest) :
    rest = [] := by
  induction n using Nat.strongRecOn generalizing rest with
  | ind n ih =>
    rw [decimalDigits, Nat.toDigits_eq_if (by decide)] at h
    split at h
    · exact (List.cons.inj h).2.symm
    · next hlarge =>
      obtain ⟨first, others, hfirst⟩ :=
        List.exists_cons_of_ne_nil (Nat.toDigits_ne_nil : Nat.toDigits 10 (n / 10) ≠ [])
      rw [hfirst, List.cons_append] at h
      obtain ⟨rfl, -⟩ := List.cons.inj h
      obtain rfl := ih (n / 10) (by omega) hfirst
      have hquotient : n / 10 = 0 := by
        rw [← Nat.ofDigitChars_ten_toDigits (n := n / 10), hfirst]
        rfl
      omega

end CallGraph
