import CallGraph.Text.CodePoint
import Mathlib.Data.List.Lex

/-!
# Texts in the order of their code points

The comparison of two texts goes along their code units, and comes from one character to the next as a
code point tells by its size how many units it takes up. So it is the lexicographic order of code points:
it is total and transitive, and takes no two texts for equal. Sorting by it therefore gives the one list
in ascending order that holds the same texts as often as before, in whatever order these came.
-/

namespace CallGraph.Text

/-- The code points of the characters of a text. -/
def codePoints (text : String) : List Nat :=
  text.toList.map Char.toNat

theorem compareLex_eq_lt_iff {a b : List Nat} : compareLex a b = .lt ↔ a < b := by
  induction a generalizing b with
  | nil => cases b <;> simp [compareLex]
  | cons x xs ih =>
    cases b with
    | nil => simp [compareLex]
    | cons y ys =>
      rw [compareLex, List.cons_lt_cons_iff]
      rcases Nat.lt_trichotomy x y with hless | rfl | hmore
      · simp [hless]
      · simp [ih]
      · simp [hmore, Nat.lt_asymm hmore, Nat.ne_of_gt hmore]

theorem isLE_compareLex_iff {a b : List Nat} : (compareLex a b).isLE = true ↔ a ≤ b := by
  rw [← not_lt, ← compareLex_eq_lt_iff, ← compareLex_swap a b]
  cases compareLex a b <;> decide

/-! ### From code units to code points -/

/-- The units of a character begin with its code point, whatever follows them, and there is a second one just
where the code point is beyond the basic plane. -/
theorem exists_codeUnits_eq_cons (c : Char) :
    ∃ unit behind, codeUnits c = unit :: behind ∧
      behind.length = (if 0xFFFF < c.toNat then 1 else 0) ∧
      ∀ rest, codePointAt unit (behind ++ rest) = c.toNat := by
  have hvalid : c.toNat < 0xD800 ∨ 0xDFFF < c.toNat ∧ c.toNat < 0x110000 := c.valid
  by_cases hbasic : c.toNat < 0x10000
  · refine ⟨c.toNat, [], by simp [codeUnits, hbasic], by simp; omega, fun rest => ?_⟩
    cases rest with
    | nil => rfl
    | cons next rest =>
      -- No character of the basic plane is half a pair.
      have halone : isSurrogatePair c.toNat next = false := by
        rw [Bool.eq_false_iff]
        simp only [isSurrogatePair, ne_eq, Bool.and_eq_true, decide_eq_true_eq]
        omega
      simp [codePointAt, halone]
  · refine ⟨0xD800 + (c.toNat - 0x10000) / 0x400, [0xDC00 + (c.toNat - 0x10000) % 0x400],
      by simp [codeUnits, hbasic], ?_, fun rest => ?_⟩
    · rw [if_pos (by omega)]
      rfl
    · have hpair : isSurrogatePair (0xD800 + (c.toNat - 0x10000) / 0x400)
          (0xDC00 + (c.toNat - 0x10000) % 0x400) = true := by
        simp only [isSurrogatePair, Bool.and_eq_true, decide_eq_true_eq]
        omega
      rw [List.singleton_append, codePointAt, if_pos hpair]
      omega

theorem compareFrom_append (behind as bs : List Nat) :
    compareFrom behind.length (behind ++ as) (behind ++ bs) = compareFrom 0 as bs := by
  induction behind with
  | nil => rfl
  | cons unit behind ih => exact ih

/-- One character on both sides is compared by its code point, and where it is the same, the comparison
goes on behind it. -/
theorem compareFrom_codeUnits_append (c d : Char) (as bs : List Nat) :
    compareFrom 0 (codeUnits c ++ as) (codeUnits d ++ bs) =
      if c.toNat < d.toNat then .lt else if d.toNat < c.toNat then .gt else compareFrom 0 as bs := by
  obtain ⟨unit, behind, hunits, hlength, hpoint⟩ := exists_codeUnits_eq_cons c
  obtain ⟨other, others, hothers, -, hother⟩ := exists_codeUnits_eq_cons d
  rw [hunits, hothers, List.cons_append, List.cons_append, compareFrom]
  simp only [hpoint, hother]
  split
  · rfl
  split
  · rfl
  · next hless hmore =>
    obtain rfl : c = d := Char.toNat_inj.1 (by omega)
    obtain ⟨-, rfl⟩ := List.cons.inj (hunits.symm.trans hothers)
    rw [← hlength, compareFrom_append]

theorem compareFrom_flatMap_codeUnits (a b : List Char) :
    compareFrom 0 (a.flatMap codeUnits) (b.flatMap codeUnits) =
      compareLex (a.map Char.toNat) (b.map Char.toNat) := by
  induction a generalizing b with
  | nil =>
    cases b with
    | nil => rfl
    | cons d ds =>
      obtain ⟨unit, behind, hunits, -⟩ := exists_codeUnits_eq_cons d
      rw [List.flatMap_cons, hunits]
      rfl
  | cons c cs ih =>
    cases b with
    | nil =>
      obtain ⟨unit, behind, hunits, -⟩ := exists_codeUnits_eq_cons c
      rw [List.flatMap_cons, hunits]
      rfl
    | cons d ds =>
      rw [List.flatMap_cons, List.flatMap_cons, compareFrom_codeUnits_append, ih]
      rfl

theorem compareByCodePoint_eq (a b : String) :
    compareByCodePoint a b = compareLex (codePoints a) (codePoints b) :=
  compareFrom_flatMap_codeUnits a.toList b.toList

theorem isLE_compareByCodePoint_iff {a b : String} :
    (compareByCodePoint a b).isLE = true ↔ codePoints a ≤ codePoints b := by
  rw [compareByCodePoint_eq, isLE_compareLex_iff]

/-! ### Sorting -/

def NotBehind (a b : String) : Prop :=
  (compareByCodePoint a b).isLE = true

theorem NotBehind.trans {a b c : String} (hab : NotBehind a b) (hbc : NotBehind b c) :
    NotBehind a c := by
  rw [NotBehind, isLE_compareByCodePoint_iff] at *
  exact le_trans hab hbc

theorem notBehind_total (a b : String) : NotBehind a b ∨ NotBehind b a := by
  simp only [NotBehind, isLE_compareByCodePoint_iff]
  exact le_total (codePoints a) (codePoints b)

theorem sortByCodePoint_perm (items : List String) : (sortByCodePoint items).Perm items :=
  List.mergeSort_perm items _

theorem pairwise_sortByCodePoint (items : List String) :
    (sortByCodePoint items).Pairwise NotBehind := by
  refine List.pairwise_mergeSort ?_ ?_ items
  · intro a b c hab hbc
    exact NotBehind.trans hab hbc
  · intro a b
    simpa [NotBehind] using notBehind_total a b

theorem codePoints_inj {a b : String} : codePoints a = codePoints b ↔ a = b := by
  refine ⟨fun h => ?_, congrArg codePoints⟩
  have hinjective : Function.Injective Char.toNat := fun _ _ => Char.toNat_inj.1
  exact String.toList_inj.1 (List.map_injective_iff.2 hinjective h)

theorem NotBehind.antisymm {a b : String} (hab : NotBehind a b) (hba : NotBehind b a) : a = b := by
  rw [NotBehind, isLE_compareByCodePoint_iff] at hab hba
  exact codePoints_inj.1 (le_antisymm hab hba)

theorem eq_of_perm_of_pairwise {items others : List String} (hperm : items.Perm others)
    (hitems : items.Pairwise NotBehind) (hothers : others.Pairwise NotBehind) : items = others := by
  refine List.Perm.eq_of_pairwise ?_ hitems hothers hperm
  intro a b _ _ hab hba
  exact hab.antisymm hba

theorem sortByCodePoint_eq_of_perm {items others : List String} (h : items.Perm others) :
    sortByCodePoint items = sortByCodePoint others := by
  have hperm : (sortByCodePoint items).Perm (sortByCodePoint others) :=
    (sortByCodePoint_perm items).trans (h.trans (sortByCodePoint_perm others).symm)
  exact eq_of_perm_of_pairwise hperm (pairwise_sortByCodePoint _) (pairwise_sortByCodePoint _)

/-- Texts may be left out before the sorting as well as after it. -/
theorem filter_sortByCodePoint (keep : String → Bool) (items : List String) :
    (sortByCodePoint items).filter keep = sortByCodePoint (items.filter keep) := by
  have hperm : ((sortByCodePoint items).filter keep).Perm (sortByCodePoint (items.filter keep)) :=
    ((sortByCodePoint_perm items).filter keep).trans (sortByCodePoint_perm _).symm
  have hfiltered : ((sortByCodePoint items).filter keep).Pairwise NotBehind :=
    (pairwise_sortByCodePoint items).filter keep
  exact eq_of_perm_of_pairwise hperm hfiltered (pairwise_sortByCodePoint _)

/-! ### The order as a whole -/

theorem compareByCodePoint_swap (a b : String) :
    (compareByCodePoint a b).swap = compareByCodePoint b a := by
  rw [compareByCodePoint_eq, compareByCodePoint_eq, compareLex_swap]

theorem compareByCodePoint_eq_lt_iff {a b : String} :
    compareByCodePoint a b = .lt ↔ codePoints a < codePoints b := by
  rw [compareByCodePoint_eq, compareLex_eq_lt_iff]

theorem compareByCodePoint_eq_gt_iff {a b : String} :
    compareByCodePoint a b = .gt ↔ codePoints b < codePoints a := by
  rw [← compareByCodePoint_eq_lt_iff, ← compareByCodePoint_swap b a, Ordering.swap_eq_gt]

theorem compareByCodePoint_eq_eq_iff {a b : String} : compareByCodePoint a b = .eq ↔ a = b := by
  refine ⟨fun h => ?_, ?_⟩
  · have hba : compareByCodePoint b a = .eq := by rw [← compareByCodePoint_swap, h, Ordering.swap_eq]
    exact NotBehind.antisymm (by rw [NotBehind, h, Ordering.isLE_eq]) (by rw [NotBehind, hba, Ordering.isLE_eq])
  · rintro rfl
    rw [compareByCodePoint_eq, compareLex_self]

/-- The comparison is the lexicographic order of code points, and sorting by it gives the only list in ascending
order among those that hold the same texts. -/
theorem compareByCodePoint_lexicographic :
    (∀ a b, (compareByCodePoint a b = .lt ↔ codePoints a < codePoints b) ∧
      (compareByCodePoint a b = .eq ↔ codePoints a = codePoints b) ∧
      (compareByCodePoint a b = .gt ↔ codePoints b < codePoints a)) ∧
    (∀ a b, compareByCodePoint a b = .eq ↔ a = b) ∧
    (∀ a b, (compareByCodePoint a b).swap = compareByCodePoint b a) ∧
    (∀ a b c, (compareByCodePoint a b).isLE = true → (compareByCodePoint b c).isLE = true →
      (compareByCodePoint a c).isLE = true) ∧
    ∀ items sorted : List String,
      (sorted.Perm items ∧ sorted.Pairwise fun a b => (compareByCodePoint a b).isLE = true) ↔
        sorted = sortByCodePoint items := by
  refine ⟨fun a b => ⟨compareByCodePoint_eq_lt_iff, ?_, compareByCodePoint_eq_gt_iff⟩,
    fun a b => compareByCodePoint_eq_eq_iff, compareByCodePoint_swap, fun a b c => NotBehind.trans, ?_⟩
  · rw [codePoints_inj, compareByCodePoint_eq_eq_iff]
  · intro items sorted
    constructor
    · rintro ⟨hperm, hordered⟩
      exact eq_of_perm_of_pairwise (hperm.trans (sortByCodePoint_perm items).symm) hordered
        (pairwise_sortByCodePoint items)
    · rintro rfl
      exact ⟨sortByCodePoint_perm items, pairwise_sortByCodePoint items⟩

/-- The texts go apart inside a surrogate pair, right behind one, and in front of a character whose unit is above
those of pairs. -/
theorem compareByCodePoint_lexicographic_astral :
    (compareByCodePoint "a\uffffb" "a😀").isLE = true ∧
      (compareByCodePoint "a😀" "a😀b").isLE = true ∧
      (compareByCodePoint "a\uffffb" "a😀b").isLE = true ∧
      sortByCodePoint ["a😁", "a😀b", "a\uffffb", "a😀", "a"] =
        ["a", "a\uffffb", "a😀", "a😀b", "a😁"] := by
  obtain ⟨-, -, -, htrans, hsort⟩ := compareByCodePoint_lexicographic
  have hfirst : (compareByCodePoint "a\uffffb" "a😀").isLE = true := by decide
  have hsecond : (compareByCodePoint "a😀" "a😀b").isLE = true := by decide
  exact ⟨hfirst, hsecond, htrans _ _ _ hfirst hsecond, ((hsort _ _).1 ⟨by decide, by decide⟩).symm⟩

end CallGraph.Text
