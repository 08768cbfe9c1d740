import CallGraph.Number.Reading
import CallGraph.Proofs.Number.Safe
import Mathlib.Data.Nat.Digits.Lemmas

/-!
# Hexadecimal numerals

Hexadecimal digits spell one natural number exactly, in either case and with any zeros in front. Reading them
rounds that number, which changes nothing where the format holds it; so a number and its digits are the same to
whoever reads both.
-/

namespace CallGraph

/-- The characters are hexadecimal digits in either case, at least one, and the number is their exact
value. -/
def SpellsHex (digits : List Char) (n : Nat) : Prop :=
  digits ≠ [] ∧ ∃ values : List Nat, (∀ value ∈ values, value < 16) ∧
    digits.map Char.toLower = values.map Nat.digitChar ∧ Nat.ofDigits 16 values.reverse = n

/-! ### Digits -/

private theorem hexDigit?_ascii : ∀ code < 128,
    (∀ value ∈ hexDigit? (Char.ofNat code), value < 16) ∧
      ∀ value < 16, hexDigit? (Char.ofNat code) = some value ↔
        (Char.ofNat code).toLower = Nat.digitChar value := by
  decide +kernel

theorem hexDigit?_eq_none {c : Char} (hc : 128 ≤ c.toNat) : hexDigit? c = none := by
  have hbehind {last : Char} (hlast : last.toNat < 128) : ¬ c ≤ last := by
    intro hle
    have hcode : c.toNat ≤ last.toNat := UInt32.le_iff_toNat_le.1 hle
    omega
  simp [hexDigit?, hbehind (show '9'.toNat < 128 by decide), hbehind (show 'f'.toNat < 128 by decide),
    hbehind (show 'F'.toNat < 128 by decide)]

theorem toNat_lt_of_toLower {c : Char} (h : c.toLower.toNat < 128) : c.toNat < 128 := by
  unfold Char.toLower at h
  split at h
  · next hupper =>
    have hle : c.toNat ≤ 'Z'.toNat := UInt32.le_iff_toNat_le.1 hupper.2
    exact lt_of_le_of_lt hle (by decide)
  · exact h

theorem hexDigit?_eq_some_iff {c : Char} {value : Nat} :
    hexDigit? c = some value ↔ value < 16 ∧ c.toLower = Nat.digitChar value := by
  by_cases hc : c.toNat < 128
  · obtain ⟨hvalues, htable⟩ := hexDigit?_ascii c.toNat hc
    rw [Char.ofNat_toNat] at hvalues htable
    constructor
    · intro h
      have hvalue := hvalues value h
      exact ⟨hvalue, (htable value hvalue).1 h⟩
    · rintro ⟨hvalue, hlower⟩
      exact (htable value hvalue).2 hlower
  · have hdigit : ∀ digit < 16, (Nat.digitChar digit).toNat < 128 := by decide
    rw [hexDigit?_eq_none (not_lt.1 hc)]
    refine ⟨fun h => by simp at h, fun ⟨hvalue, hlower⟩ => absurd (toNat_lt_of_toLower ?_) hc⟩
    rw [hlower]
    exact hdigit value hvalue

/-! ### Digits and their value -/

theorem digitsValue?_eq_some_iff {start n : Nat} {digits : List Char} :
    digitsValue? 16 start digits = some n ↔
      ∃ values : List Nat, (∀ value ∈ values, value < 16) ∧
        digits.map Char.toLower = values.map Nat.digitChar ∧
        Nat.ofDigits 16 values.reverse + 16 ^ values.length * start = n := by
  induction digits generalizing start with
  | nil => simp [digitsValue?, eq_comm]
  | cons c rest ih =>
    have hstep (value : Nat) (values : List Nat) :
        Nat.ofDigits 16 (value :: values).reverse + 16 ^ (value :: values).length * start
          = Nat.ofDigits 16 values.reverse + 16 ^ values.length * (16 * start + value) := by
      rw [List.reverse_cons, Nat.ofDigits_append, Nat.ofDigits_singleton, List.length_reverse,
        List.length_cons]
      ring
    rw [digitsValue?]
    constructor
    · intro h
      cases hdigit : hexDigit? c with
      | none => simp [hdigit] at h
      | some value =>
        obtain ⟨hvalue, hc⟩ := hexDigit?_eq_some_iff.1 hdigit
        simp only [hdigit, if_pos hvalue] at h
        obtain ⟨values, hvalues, hrest, hn⟩ := ih.1 h
        refine ⟨value :: values, List.forall_mem_cons.2 ⟨hvalue, hvalues⟩, ?_, ?_⟩
        · rw [List.map_cons, List.map_cons, hc, hrest]
        · rw [hstep, hn]
    · rintro ⟨all, hall, hdigits, hn⟩
      obtain ⟨value, values, rfl, hc, hrest⟩ := List.map_eq_cons_iff.1 hdigits.symm
      obtain ⟨hvalue, hvalues⟩ := List.forall_mem_cons.1 hall
      simp only [hexDigit?_eq_some_iff.2 ⟨hvalue, hc.symm⟩, if_pos hvalue]
      exact ih.2 ⟨values, hvalues, hrest.symm, by rw [← hstep, hn]⟩

theorem ofDigits?_eq_some_iff {digits : List Char} {value : Number} :
    Number.ofDigits? 16 digits = some value ↔
      ∃ n, SpellsHex digits n ∧ Number.nearestQuotient n 1 = value := by
  unfold Number.ofDigits?
  cases digits with
  | nil => simp [SpellsHex]
  | cons c rest => simp [SpellsHex, digitsValue?_eq_some_iff]

theorem exists_values_toDigits (n : Nat) :
    ∃ values : List Nat, (∀ value ∈ values, value < 16) ∧
      values.map Nat.digitChar = Nat.toDigits 16 n ∧ Nat.ofDigits 16 values.reverse = n := by
  induction n using Nat.strongRecOn with
  | ind n ih =>
    rw [Nat.toDigits_eq_if (by decide)]
    split
    · next hsmall =>
      exact ⟨[n], List.forall_mem_singleton.2 hsmall, rfl, Nat.ofDigits_singleton⟩
    · obtain ⟨values, hvalues, hdigits, hvalue⟩ := ih (n / 16) (by omega)
      refine ⟨values ++ [n % 16], ?_, ?_, ?_⟩
      · rw [List.forall_mem_append, List.forall_mem_singleton]
        exact ⟨hvalues, Nat.mod_lt n (by decide)⟩
      · rw [List.map_append, hdigits, List.map_singleton]
      · rw [List.reverse_append, List.reverse_singleton, List.singleton_append, Nat.ofDigits_cons,
          hvalue]
        exact Nat.mod_add_div n 16

theorem map_toLower_toDigits (n : Nat) :
    (Nat.toDigits 16 n).map Char.toLower = Nat.toDigits 16 n := by
  have hlower : ∀ value < 16, (Nat.digitChar value).toLower = Nat.digitChar value := by decide
  obtain ⟨values, hvalues, hdigits, -⟩ := exists_values_toDigits n
  rw [← hdigits, List.map_map]
  exact List.map_congr_left fun value hvalue => hlower value (hvalues value hvalue)

/-- The digits of a number spell it in any case, and with any number of zeros in front. -/
theorem spellsHex_of_map_toLower {digits : List Char} {zeros n : Nat}
    (h : digits.map Char.toLower = List.replicate zeros '0' ++ Nat.toDigits 16 n) :
    SpellsHex digits n := by
  obtain ⟨values, hvalues, hdigits, hvalue⟩ := exists_values_toDigits n
  refine ⟨?_, List.replicate zeros 0 ++ values, ?_, ?_, ?_⟩
  · rintro rfl
    exact absurd (List.append_eq_nil_iff.1 h.symm).2 Nat.toDigits_ne_nil
  · rw [List.forall_mem_append]
    refine ⟨fun value hvalue => ?_, hvalues⟩
    rw [List.eq_of_mem_replicate hvalue]
    decide
  · rw [h, List.map_append, List.map_replicate, hdigits]
    rfl
  · rw [List.reverse_append, List.reverse_replicate, Nat.ofDigits_append, hvalue,
      Nat.ofDigits_replicate_zero, Nat.mul_zero, Nat.add_zero]

theorem Number.hexText_ofNat (n : Nat) : (Number.ofNat n).hexText = Nat.toDigits 16 n := by
  have hsign : ¬ ((n : Rat) < 0) := not_lt.2 (Nat.cast_nonneg n)
  have hfloor : (n : Rat).floor = n := by simp [Rat.floor]
  simp [Number.ofNat, Number.hexText, hsign, Number.hexFraction, hexDigits, hfloor]

end CallGraph
