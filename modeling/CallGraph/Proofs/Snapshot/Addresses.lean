import CallGraph.Proofs.Number.Hexadecimal
import CallGraph.Proofs.Schema.Acceptance
import CallGraph.Snapshot.Address

/-!
# Addresses in documents

An address may be written as a number or as hexadecimal digits behind `0x`, and is accepted when it is an exact
integer: a text may spell an integer of any size, but one that is rounded lies beyond the bound and is refused. What
is accepted is known by its value alone, so that nothing behind the check can tell how an address was written.
-/

namespace CallGraph

open Schema Schema.Checked

/-- Whether a document can hold the address. -/
def Address.IsExact (address : Address) : Prop :=
  0 ≤ address ∧ address ≤ Number.maxSafe

/-- The value stands for the address: it is an exact integer, as a number or in hexadecimal digits
behind `0x`. -/
inductive Export.IsAddress : Json → Address → Prop
  | number {n : Nat} (hn : n ≤ Number.maxSafe) : IsAddress (.nat n) n
  | text {text : String} {digits : List Char} {n : Nat} (htext : text.toList = '0' :: 'x' :: digits)
      (hdigits : SpellsHex digits n) (hn : n ≤ Number.maxSafe) : IsAddress (.string text) n

theorem Address.IsExact.isAddress {address : Address} (h : address.IsExact) :
    Export.IsAddress (.int address) address := by
  obtain ⟨n, rfl⟩ := Int.eq_ofNat_of_zero_le h.1
  have hn : n ≤ Number.maxSafe := Int.ofNat_le.1 h.2
  have hjson : Json.int (n : Int) = .nat n := by
    simp [Json.int, Json.nat, Number.ofInt, Number.ofNat]
  exact hjson ▸ .number hn

theorem hexAddress?_eq_some_iff {text : List Char} {value : Number} :
    hexAddress? text = some value ↔
      ∃ digits n, text = '0' :: 'x' :: digits ∧ SpellsHex digits n ∧
        Number.nearestQuotient n 1 = value := by
  unfold hexAddress?
  split
  · simp [ofDigits?_eq_some_iff]
  · next hother =>
    simp only [reduceCtorEq, false_iff, not_exists, not_and]
    exact fun digits n htext => absurd htext (hother digits)

namespace Location

def ofAddress (address : Address) : Location := .number (.ofInt address)

def ofNat (n : Nat) : Location := .number (.ofNat n)

theorem ofAddress_natCast (n : Nat) : ofAddress (n : Int) = ofNat n := by
  simp [ofAddress, ofNat, Number.ofInt, Number.ofNat]

@[simp] theorem toAddress_ofAddress (address : Address) : (ofAddress address).toAddress = address := by
  simp [ofAddress, toAddress, Number.toInt?_ofInt]

@[simp] theorem isBehind_ofAddress (first second : Address) :
    (ofAddress first).isBehind (ofAddress second) = decide (first < second) := by
  simp [ofAddress, isBehind, toNumber?, Number.ofInt, Number.less]

theorem ofAddress_injective : Function.Injective ofAddress := by
  intro first second h
  rw [← toAddress_ofAddress first, h, toAddress_ofAddress]

/-! ### What is accepted -/

theorem accepts_inRange_iff {value : Number} {location : Location} :
    (inRange value).Accepts location ↔
      .number value = location ∧ (Number.ofNat Number.maxSafe).less value = false := by
  simp [inRange]

/-- The test of the range tells an integer from one that rounding has moved, even though it sees the rounded
one. -/
theorem accepts_inRange_nearestQuotient_iff {n : Nat} {location : Location} :
    (inRange (Number.nearestQuotient n 1)).Accepts location ↔
      n ≤ Number.maxSafe ∧ location = ofNat n := by
  rw [accepts_inRange_iff]
  rcases Nat.lt_or_ge Number.maxSafe n with hlarge | hsmall
  · simp [Number.maxSafe_less_nearestQuotient hlarge, hlarge]
  · simp [Number.nearestQuotient_of_le hsmall, hsmall, ofNat, eq_comm]

/-- What is accepted as an address is what stands for one. -/
theorem accepts_check_iff {value : Option Json} {location : Location} :
    (check value).Accepts location ↔
      ∃ json address, value = some json ∧ Export.IsAddress json address ∧
        location = ofAddress address := by
  constructor
  · intro h
    unfold check at h
    split at h
    · next number =>
      split at h
      · next hproblems =>
        obtain ⟨n, rfl⟩ := Check.countProblems_eq_nil_iff.1 hproblems
        obtain ⟨rfl, hrange⟩ := accepts_inRange_iff.1 h
        exact ⟨_, n, rfl, .number (by simpa using hrange), (ofAddress_natCast n).symm⟩
      · next hproblems => exact absurd (accepts_flawed_iff.1 h).2 hproblems
    · next text =>
      split at h
      · next hvalue =>
        obtain ⟨digits, n, htext, hdigits, rfl⟩ := hexAddress?_eq_some_iff.1 hvalue
        obtain ⟨hn, rfl⟩ := accepts_inRange_nearestQuotient_iff.1 h
        exact ⟨_, n, rfl, .text htext hdigits hn, (ofAddress_natCast n).symm⟩
      · simp at h
    · exact absurd h not_accepts_refuse
  · rintro ⟨_, _, rfl, ⟨hn⟩ | ⟨htext, hdigits, hn⟩, rfl⟩
    · next n =>
      rw [ofAddress_natCast, Json.nat, check, Check.countProblems_eq_nil_iff.2 ⟨n, rfl⟩]
      exact accepts_inRange_iff.2 ⟨rfl, by simpa using hn⟩
    · next text digits n =>
      have hvalue := hexAddress?_eq_some_iff.2 ⟨digits, n, htext, hdigits, rfl⟩
      rw [ofAddress_natCast, check, hvalue]
      exact accepts_inRange_nearestQuotient_iff.2 ⟨hn, rfl⟩

end Location

end CallGraph
