import CallGraph.Number.Decimal
import CallGraph.Proofs.Json.Members
import CallGraph.Proofs.Text.Distinct
import Mathlib.Data.List.Induction
import Mathlib.Order.WithBot

/-!
# The order of members

Keys that are array indices come first in an object, in ascending order, and all others keep the order in
which they came. This is said here of the keys alone: an object that overrides and extends another has the keys
of both in just this order, each by the place where it comes first, and so has one that is read from members in
whatever order they were written.
-/

namespace CallGraph.Json

/-! ### Array indices -/

theorem exists_digitChar_eq {c : Char} (hc : c.isDigit = true) :
    ∃ value < 10, c = Nat.digitChar value := by
  simp only [Char.isDigit, Bool.and_eq_true, decide_eq_true_eq] at hc
  have hlow : '0'.toNat ≤ c.toNat := UInt32.le_iff_toNat_le.1 hc.1
  have hhigh : c.toNat ≤ '9'.toNat := UInt32.le_iff_toNat_le.1 hc.2
  have hzero : '0'.toNat = 48 := rfl
  have hnine : '9'.toNat = 57 := rfl
  refine ⟨c.toNat - 48, by omega, ?_⟩
  rw [← Char.toNat_inj, Nat.toNat_digitChar_of_lt_ten (by omega)]
  omega

/-- Digits behind those of a positive number go on with it. -/
theorem decimalDigits_append {leading : Nat} (hleading : 0 < leading) {digits : List Char}
    (hdigits : ∀ c ∈ digits, c.isDigit = true) :
    decimalDigits leading ++ digits = decimalDigits (Nat.ofDigitChars 10 digits leading) := by
  unfold decimalDigits
  induction digits generalizing leading with
  | nil => rw [List.append_nil, Nat.ofDigitChars_nil]
  | cons c rest ih =>
    obtain ⟨hc, hrest⟩ := List.forall_mem_cons.1 hdigits
    obtain ⟨value, hvalue, rfl⟩ := exists_digitChar_eq hc
    rw [Nat.ofDigitChars_cons_digitChar_of_lt_ten hvalue, ← ih (by omega) hrest,
      ← Nat.toDigits_append_toDigits (by decide) hleading hvalue,
      Nat.toDigits_of_lt_base hvalue, List.append_assoc, List.singleton_append]

/-- An index is spelled in one way, without zeros in front. -/
theorem toList_of_arrayIndex? {key : String} {index : Nat} (h : arrayIndex? key = some index) :
    key.toList = decimalDigits index := by
  unfold arrayIndex? at h
  dsimp only at h
  split at h
  · cases h
  next hnumeral =>
  split at h
  · cases h
  next hzeros =>
  split at h
  · cases h
    simp only [Bool.or_eq_true, Bool.not_eq_true', not_or, Bool.not_eq_false,
      List.isEmpty_iff] at hnumeral
    obtain ⟨c, rest, hdigits⟩ := List.exists_cons_of_ne_nil hnumeral.1
    have hall := List.all_eq_true.1 hnumeral.2
    rw [hdigits] at hall hzeros ⊢
    obtain ⟨hc, hrest⟩ := List.forall_mem_cons.1 hall
    obtain ⟨value, hvalue, rfl⟩ := exists_digitChar_eq hc
    rw [Nat.ofDigitChars_cons_digitChar_of_lt_ten hvalue, Nat.mul_zero, Nat.zero_add]
    rcases Nat.eq_zero_or_pos value with rfl | hpositive
    · -- A zero in front stands alone.
      obtain rfl : rest = [] := by
        simpa [Nat.digitChar] using hzeros
      rfl
    · rw [← decimalDigits_append hpositive hrest, decimalDigits, Nat.toDigits_of_lt_base hvalue]
      rfl
  · cases h

theorem arrayIndex?_inj {key other : String} {index : Nat} (h : arrayIndex? key = some index)
    (hother : arrayIndex? other = some index) : key = other := by
  rw [← String.toList_inj, toList_of_arrayIndex? h, toList_of_arrayIndex? hother]

/-! ### The order of keys -/

/-- The rank of a key in an object: its index, and behind all indices what is none. -/
def rank (key : String) : WithTop Nat :=
  arrayIndex? key

def isIndex (key : String) : Bool :=
  (arrayIndex? key).isSome

theorem rank_eq_top {key : String} (h : isIndex key = false) : rank key = ⊤ :=
  Option.isNone_iff_eq_none.1 (Option.isSome_eq_false_iff.1 h)

theorem rank_lt_top {key : String} (h : isIndex key = true) : rank key < ⊤ := by
  obtain ⟨index, hindex⟩ := Option.isSome_iff_exists.1 h
  rw [rank, hindex]
  exact WithTop.coe_lt_top index

theorem rank_inj {key other : String} (h : isIndex key = true) (hrank : rank key = rank other) :
    key = other := by
  obtain ⟨index, hindex⟩ := Option.isSome_iff_exists.1 h
  exact arrayIndex?_inj hindex (hrank.symm.trans hindex)

theorem goesBefore_iff {key other : String} : goesBefore key other = true ↔ rank key < rank other := by
  rw [goesBefore, rank, rank]
  cases arrayIndex? key with
  | none => exact iff_of_false Bool.false_ne_true not_top_lt
  | some index =>
    cases arrayIndex? other with
    | none => exact iff_of_true rfl (WithTop.coe_lt_top index)
    | some present => exact decide_eq_true_iff.trans WithTop.coe_lt_coe.symm

/-- Keys in the order in which an object has them: the indices, in ascending order, and behind them the
others, in the order in which they are given. -/
def inReadingOrder (keys : List String) : List String :=
  (keys.filter isIndex).mergeSort (fun a b => rank a ≤ rank b) ++ keys.filter fun key => !isIndex key

def IsInReadingOrder (keys : List String) : Prop :=
  keys.Pairwise fun a b => rank a ≤ rank b

instance (keys : List String) : Decidable (IsInReadingOrder keys) :=
  inferInstanceAs (Decidable (keys.Pairwise fun a b => rank a ≤ rank b))

theorem isInReadingOrder_mergeSort (keys : List String) :
    IsInReadingOrder (keys.mergeSort fun a b => rank a ≤ rank b) := by
  have htrans (a b c : String) (hab : decide (rank a ≤ rank b) = true)
      (hbc : decide (rank b ≤ rank c) = true) : decide (rank a ≤ rank c) = true := by
    rw [decide_eq_true_iff] at hab hbc ⊢
    exact le_trans hab hbc
  have htotal (a b : String) : (decide (rank a ≤ rank b) || decide (rank b ≤ rank a)) = true := by
    rw [Bool.or_eq_true, decide_eq_true_iff, decide_eq_true_iff]
    exact le_total _ _
  exact (List.pairwise_mergeSort htrans htotal keys).imp decide_eq_true_iff.1

/-- In reading order, all indices precede all other keys. -/
theorem IsInReadingOrder.filter_append_filter {keys : List String} (h : IsInReadingOrder keys) :
    keys.filter isIndex ++ keys.filter (fun key => !isIndex key) = keys := by
  induction keys with
  | nil => rfl
  | cons key rest ih =>
    obtain ⟨hkey, hrest⟩ := List.pairwise_cons.1 h
    cases hindex : isIndex key with
    | true =>
      rw [List.filter_cons_of_pos hindex, List.filter_cons_of_neg (by simp [hindex]),
        List.cons_append, ih hrest]
    | false =>
      have hnone : rest.filter isIndex = [] := by
        refine List.filter_eq_nil_iff.2 fun other hother hbehind => ?_
        exact absurd (hkey other hother) (not_le.2 (rank_eq_top hindex ▸ rank_lt_top hbehind))
      rw [hnone, List.nil_append] at ih
      rw [List.filter_cons_of_neg (by simp [hindex]), List.filter_cons_of_pos (by simp [hindex]),
        hnone, List.nil_append, ih hrest]

/-- There is no other order in which ranks ascend and the other keys keep their places among each other. -/
theorem eq_inReadingOrder {keys read : List String} (hperm : read.Perm keys)
    (horder : IsInReadingOrder read)
    (hothers : read.filter (fun key => !isIndex key) = keys.filter fun key => !isIndex key) :
    read = inReadingOrder keys := by
  have hindices : (read.filter isIndex).Perm
      ((keys.filter isIndex).mergeSort fun a b => rank a ≤ rank b) :=
    (hperm.filter isIndex).trans (List.mergeSort_perm _ _).symm
  have hsame : read.filter isIndex = (keys.filter isIndex).mergeSort fun a b => rank a ≤ rank b := by
    refine List.Perm.eq_of_pairwise ?_ (horder.filter isIndex) (isInReadingOrder_mergeSort _) hindices
    intro a b ha _ hab hba
    exact rank_inj (List.mem_filter.1 ha).2 (le_antisymm hab hba)
  rw [← horder.filter_append_filter, hsame, hothers, inReadingOrder]

theorem isInReadingOrder_inReadingOrder (keys : List String) :
    IsInReadingOrder (inReadingOrder keys) := by
  have hlast : ∀ b ∈ keys.filter (fun key => !isIndex key), rank b = ⊤ := by
    intro b hb
    exact rank_eq_top (by simpa using (List.mem_filter.1 hb).2)
  refine List.pairwise_append.2 ⟨isInReadingOrder_mergeSort _, ?_, ?_⟩
  · refine List.pairwise_of_forall_mem_list fun a _ b hb => ?_
    exact hlast b hb ▸ le_top
  · intro a _ b hb
    exact hlast b hb ▸ le_top

theorem filter_isIndex_inReadingOrder (keys : List String) :
    (inReadingOrder keys).filter (fun key => !isIndex key) = keys.filter fun key => !isIndex key := by
  have hindices : ((keys.filter isIndex).mergeSort fun a b => rank a ≤ rank b).filter
      (fun key => !isIndex key) = [] := by
    refine List.filter_eq_nil_iff.2 fun key hkey => ?_
    have hindex := (List.mem_filter.1 ((List.mergeSort_perm _ _).subset hkey)).2
    simp [hindex]
  rw [inReadingOrder, List.filter_append, hindices, List.nil_append, List.filter_filter]
  simp only [Bool.and_self]

theorem inReadingOrder_perm (keys : List String) : (inReadingOrder keys).Perm keys :=
  ((List.mergeSort_perm _ _).append_right _).trans (List.filter_append_perm isIndex keys)

theorem inReadingOrder_eq_self_iff {keys : List String} :
    inReadingOrder keys = keys ↔ IsInReadingOrder keys := by
  refine ⟨fun h => h ▸ isInReadingOrder_inReadingOrder keys, fun h => ?_⟩
  exact (eq_inReadingOrder (List.Perm.refl keys) h rfl).symm

/-- Keys may be left out before the ordering as well as after it. -/
theorem filter_inReadingOrder (keep : String → Bool) (keys : List String) :
    (inReadingOrder keys).filter keep = inReadingOrder (keys.filter keep) := by
  refine eq_inReadingOrder ((inReadingOrder_perm keys).filter keep)
    ((isInReadingOrder_inReadingOrder keys).filter keep) ?_
  rw [List.filter_comm, filter_isIndex_inReadingOrder, List.filter_comm]

theorem mem_inReadingOrder {key : String} {keys : List String} : key ∈ inReadingOrder keys ↔ key ∈ keys :=
  (inReadingOrder_perm keys).mem_iff

/-- The order of distinct keys depends on which there are and on the order of those that are no indices. -/
theorem inReadingOrder_eraseDups_congr {keys others : List String} (hmem : ∀ key, key ∈ keys ↔ key ∈ others)
    (horder : (keys.filter fun key => !isIndex key).eraseDups = (others.filter fun key => !isIndex key).eraseDups) :
    inReadingOrder keys.eraseDups = inReadingOrder others.eraseDups := by
  refine eq_inReadingOrder ?_ (isInReadingOrder_inReadingOrder _) ?_
  · refine (inReadingOrder_perm _).trans ?_
    refine (List.perm_ext_iff_of_nodup (nodup_eraseDups keys) (nodup_eraseDups others)).2 fun key => ?_
    rw [List.mem_eraseDups, List.mem_eraseDups, hmem]
  · rw [filter_isIndex_inReadingOrder, filter_eraseDups, horder, filter_eraseDups]

/-- Keys that have been put in order among others do not change the order of all. -/
theorem inReadingOrder_eraseDups_append (before keys after : List String) :
    inReadingOrder (before ++ inReadingOrder keys.eraseDups ++ after).eraseDups =
      inReadingOrder (before ++ keys ++ after).eraseDups := by
  refine inReadingOrder_eraseDups_congr (fun key => ?_) ?_
  · simp only [List.mem_append, mem_inReadingOrder, List.mem_eraseDups]
  · simp only [List.filter_append, filter_isIndex_inReadingOrder, filter_eraseDups]
    refine eraseDups_append_congr (eraseDups_append_congr rfl ?_) rfl
    exact eraseDups_eraseDups _

namespace Members

/-! ### Objects as they are put together -/

theorem isInReadingOrder_place {members : Members} (h : IsInReadingOrder (members.map Prod.fst))
    (key : String) (value : Json) :
    IsInReadingOrder ((place key value members).map Prod.fst) := by
  induction members with
  | nil => exact List.pairwise_singleton _ _
  | cons member rest ih =>
    rw [List.map_cons] at h
    obtain ⟨hmember, hrest⟩ := List.pairwise_cons.1 h
    rw [place]
    split
    · next hfront =>
      have hless := le_of_lt (goesBefore_iff.1 hfront)
      refine List.pairwise_cons.2 ⟨?_, h⟩
      intro other hother
      rcases List.mem_cons.1 hother with rfl | hbehind
      · exact hless
      · exact hless.trans (hmember other hbehind)
    · next hbehind =>
      rw [goesBefore_iff, not_lt] at hbehind
      refine List.pairwise_cons.2 ⟨?_, ih hrest⟩
      intro other hother
      have hmem := ((perm_place key value rest).map Prod.fst).subset hother
      rcases List.mem_cons.1 hmem with rfl | hold
      · exact hbehind
      · exact hmember other hold

theorem filter_place (key : String) (value : Json) (members : Members) :
    ((place key value members).map Prod.fst).filter (fun key => !isIndex key) =
      (members.map Prod.fst ++ [key]).filter fun key => !isIndex key := by
  induction members with
  | nil => rfl
  | cons member rest ih =>
    rw [place]
    split
    · next hfront =>
      -- Only an index is put in front of another key.
      have hindex : isIndex key = true := by
        by_contra hother
        rw [goesBefore_iff, rank_eq_top (Bool.eq_false_iff.2 hother)] at hfront
        exact not_top_lt hfront
      simp [hindex, List.filter_cons]
    · rw [List.map_cons, List.map_cons, List.cons_append, List.filter_cons, List.filter_cons, ih]

theorem map_fst_insert {members : Members} (hnodup : (members.map Prod.fst).Nodup)
    (horder : IsInReadingOrder (members.map Prod.fst)) (key : String) (value : Json) :
    (insert members key value).map Prod.fst = inReadingOrder (members.map Prod.fst ++ [key]).eraseDups := by
  rw [eraseDups_concat, eraseDups_eq_self hnodup, insert]
  split
  · next hpresent =>
    rw [map_fst_replace, if_pos (has_iff.1 hpresent), inReadingOrder_eq_self_iff.2 horder]
  · next habsent =>
    rw [if_neg (mt has_iff.2 habsent)]
    have hperm := (perm_place key value members).map Prod.fst
    exact eq_inReadingOrder (hperm.trans (List.perm_append_singleton key _).symm)
      (isInReadingOrder_place horder key value) (filter_place key value members)

/-- A key that both objects have keeps its place in the first. -/
theorem map_fst_merge {base : Members} (hnodup : (base.map Prod.fst).Nodup)
    (horder : IsInReadingOrder (base.map Prod.fst)) (extra : Members) :
    (merge base extra).map Prod.fst =
      inReadingOrder (base.map Prod.fst ++ extra.map Prod.fst).eraseDups := by
  induction extra using List.reverseRecOn with
  | nil =>
    rw [List.map_nil, List.append_nil, eraseDups_eq_self hnodup, inReadingOrder_eq_self_iff.2 horder]
    rfl
  | append_singleton extra last ih =>
    have hstep : merge base (extra ++ [last]) = insert (merge base extra) last.1 last.2 := by
      rw [merge, List.foldl_append]
      rfl
    have hmerged : IsInReadingOrder ((merge base extra).map Prod.fst) :=
      ih ▸ isInReadingOrder_inReadingOrder _
    have hkeys := inReadingOrder_eraseDups_append [] (base.map Prod.fst ++ extra.map Prod.fst) [last.1]
    rw [List.nil_append, List.nil_append] at hkeys
    rw [hstep, map_fst_insert (nodup_merge hnodup extra) hmerged, ih, hkeys, List.map_append,
      List.map_singleton, List.append_assoc]

/-- An object that is read has its keys in reading order. -/
theorem map_fst_ofList {pairs : Members} (h : (pairs.map Prod.fst).Nodup) :
    (ofList pairs).map Prod.fst = inReadingOrder (pairs.map Prod.fst) := by
  have hnone : (([] : Members).map Prod.fst).Nodup := List.nodup_nil
  have hkeys := map_fst_merge hnone .nil pairs
  rwa [List.map_nil, List.nil_append, eraseDups_eq_self h] at hkeys

end Members

end CallGraph.Json
