import CallGraph.Proofs.Snapshot.WellFormed
import CallGraph.Snapshot.Index

/-!
# The function to which an address belongs

The index answers by a binary search and a walk back that a running maximum may cut short. Both are
taken out of the picture here: what comes out is, of the functions around the address, the one that
starts last. The rest of the proofs know the search only by `covering_eq_some_iff`.
-/

namespace CallGraph

theorem FunctionEntry.covers_iff {entry : FunctionEntry} {address : Address} :
    entry.covers address = true ↔ entry.start ≤ address ∧ address < entry.stop := by
  simp [covers]

namespace Slot

/-- Slots as the search needs them: starts ascend, and the reach of a slot lies no lower than any
end up to it. -/
structure Ordered (slots : Array Slot) : Prop where
  start_lt : ∀ {i j : Nat} {left right : Slot}, i < j → slots[i]? = some left →
    slots[j]? = some right → left.entry.start < right.entry.start
  stop_le_reach : ∀ {i j : Nat} {left right : Slot}, i ≤ j → slots[i]? = some left →
    slots[j]? = some right → left.entry.stop ≤ right.reach

theorem Ordered.start_le {slots : Array Slot} (hordered : Ordered slots) {i j : Nat}
    {left right : Slot} (hij : i ≤ j) (hleft : slots[i]? = some left)
    (hright : slots[j]? = some right) : left.entry.start ≤ right.entry.start := by
  rcases Nat.lt_or_eq_of_le hij with hlt | rfl
  · exact (hordered.start_lt hlt hleft hright).le
  · rw [Option.some.inj (hleft.symm.trans hright)]

/-! ### The slots of a snapshot -/

theorem map_entry_ofSorted (reach : Address) (entries : List FunctionEntry) :
    (ofSorted reach entries).map Slot.entry = entries := by
  induction entries generalizing reach with
  | nil => rfl
  | cons entry rest ih => simp [ofSorted, ih]

theorem le_reach_of_mem_ofSorted {reach : Address} {entries : List FunctionEntry} {slot : Slot}
    (hslot : slot ∈ ofSorted reach entries) : reach ≤ slot.reach := by
  induction entries generalizing reach with
  | nil => simp [ofSorted] at hslot
  | cons entry rest ih =>
    rcases List.mem_cons.1 hslot with rfl | hrest
    · exact le_max_left _ _
    · exact (le_max_left _ _).trans (ih hrest)

theorem stop_le_reach_of_mem_ofSorted {reach : Address} {entries : List FunctionEntry} {slot : Slot}
    (hslot : slot ∈ ofSorted reach entries) : slot.entry.stop ≤ slot.reach := by
  induction entries generalizing reach with
  | nil => simp [ofSorted] at hslot
  | cons entry rest ih =>
    rcases List.mem_cons.1 hslot with rfl | hrest
    · exact le_max_right _ _
    · exact ih hrest

theorem pairwise_reach_ofSorted (reach : Address) (entries : List FunctionEntry) :
    (ofSorted reach entries).Pairwise fun left right => left.entry.stop ≤ right.reach := by
  induction entries generalizing reach with
  | nil => exact .nil
  | cons entry rest ih =>
    refine .cons ?_ (ih _)
    intro slot hslot
    exact (le_max_right _ _).trans (le_reach_of_mem_ofSorted hslot)

theorem ordered_ofSorted {reach : Address} {entries : List FunctionEntry}
    (hentries : entries.Pairwise fun left right => left.start < right.start) :
    Ordered (ofSorted reach entries).toArray := by
  have hstarts : (ofSorted reach entries).Pairwise fun left right =>
      left.entry.start < right.entry.start := by
    rwa [← map_entry_ofSorted reach entries, List.pairwise_map] at hentries
  have hreaches := pairwise_reach_ofSorted reach entries
  constructor
  · intro i j left right hij hleft hright
    rw [List.getElem?_toArray, List.getElem?_eq_some_iff] at hleft hright
    obtain ⟨hi, rfl⟩ := hleft
    obtain ⟨hj, rfl⟩ := hright
    exact List.pairwise_iff_getElem.1 hstarts i j hi hj hij
  · intro i j left right hij hleft hright
    rw [List.getElem?_toArray, List.getElem?_eq_some_iff] at hleft hright
    obtain ⟨hi, rfl⟩ := hleft
    obtain ⟨hj, rfl⟩ := hright
    rcases Nat.lt_or_eq_of_le hij with hlt | rfl
    · exact List.pairwise_iff_getElem.1 hreaches i j hi hj hlt
    · exact stop_le_reach_of_mem_ofSorted (List.getElem_mem hi)

/-! ### The binary search -/

variable {slots : Array Slot} {address : Address}

/-- The slots that start at or before the address are those with lower numbers. -/
def Separates (slots : Array Slot) (address : Address) (n : Nat) : Prop :=
  ∀ (i : Nat) (slot : Slot), slots[i]? = some slot → (slot.entry.start ≤ address ↔ i < n)

/-- Halving keeps all slots below the range started and all behind it not started, so that the point
at which the range is empty separates them. -/
theorem separates_countFrom (hordered : Ordered slots) {low high : Nat} (hle : low ≤ high)
    (hsize : high ≤ slots.size)
    (hbelow : ∀ i slot, i < low → slots[i]? = some slot → slot.entry.start ≤ address)
    (habove : ∀ i slot, high ≤ i → slots[i]? = some slot → address < slot.entry.start) :
    Separates slots address (countFrom slots address low high) := by
  fun_induction countFrom slots address low high with
  | case1 low high hlt middle slot hslot hstarted ih =>
    refine ih (by omega) hsize ?_ habove
    intro i other hi hother
    exact (hordered.start_le (Nat.le_of_lt_succ hi) hother hslot).trans hstarted
  | case2 low high hlt middle slot hslot hstarted ih =>
    refine ih (by omega) (by omega) hbelow ?_
    intro i other hi hother
    exact (not_le.1 hstarted).trans_le (hordered.start_le hi hslot hother)
  | case3 low high hlt middle hnone =>
    rw [Array.getElem?_eq_none_iff] at hnone
    omega
  | case4 low high hlt =>
    intro i slot hslot
    refine ⟨fun hstarted => ?_, fun hi => hbelow i slot hi hslot⟩
    by_contra hi
    exact absurd hstarted (not_le.2 (habove i slot (by omega) hslot))

theorem separates_countStarted (hordered : Ordered slots) :
    Separates slots address (countStarted slots address) := by
  refine separates_countFrom hordered (Nat.zero_le _) le_rfl ?_ ?_
  · intro i slot hi
    omega
  · intro i slot hi hslot
    rw [Array.getElem?_eq_none hi] at hslot
    cases hslot

theorem countFrom_le {low high : Nat} (hle : low ≤ high) :
    countFrom slots address low high ≤ high := by
  fun_induction countFrom slots address low high with
  | case1 low high hlt middle slot hslot hstarted ih => exact ih (by omega)
  | case2 low high hlt middle slot hslot hstarted ih => exact (ih (by omega)).trans (by omega)
  | case3 low high hlt middle hnone => exact hle
  | case4 low high hlt => exact hle

theorem countStarted_le_size (slots : Array Slot) (address : Address) :
    countStarted slots address ≤ slots.size :=
  countFrom_le (Nat.zero_le _)

/-! ### The walk back -/

/-- The walk ends at a slot that ends behind the address, and passes over none that does. -/
theorem lastCovering_eq_some {n : Nat} {entry : FunctionEntry}
    (h : lastCovering slots address n = some entry) :
    ∃ i slot, i < n ∧ slots[i]? = some slot ∧ slot.entry = entry ∧ address < entry.stop ∧
      ∀ j other, i < j → j < n → slots[j]? = some other → other.entry.stop ≤ address := by
  induction n with
  | zero => simp [lastCovering] at h
  | succ n ih =>
    rw [lastCovering] at h
    split at h
    · next slot hslot =>
      split at h
      · cases h
      · split at h
        · next hcovers =>
          cases h
          exact ⟨n, slot, by omega, hslot, rfl, hcovers, fun j other _ _ => by omega⟩
        · next hpassed =>
          obtain ⟨i, found, hi, hfound, hentry, hcovers, hlater⟩ := ih h
          refine ⟨i, found, by omega, hfound, hentry, hcovers, fun j other hij hj hother => ?_⟩
          rcases Nat.lt_or_eq_of_le (Nat.le_of_lt_succ hj) with hlower | rfl
          · exact hlater j other hij hlower hother
          · rw [hslot] at hother
            exact Option.some.inj hother ▸ not_lt.1 hpassed
    · cases h

/-- Where the walk finds nothing, no slot that it could have reached ends behind the address: the
reach at which it stopped early bounds all ends before it. -/
theorem lastCovering_eq_none (hordered : Ordered slots) {n : Nat} (hn : n ≤ slots.size)
    (h : lastCovering slots address n = none) :
    ∀ i slot, i < n → slots[i]? = some slot → slot.entry.stop ≤ address := by
  induction n with
  | zero =>
    intro i slot hi
    omega
  | succ n ih =>
    intro i found hi hfound
    rw [lastCovering] at h
    split at h
    · next slot hslot =>
      split at h
      · next hreach =>
        exact (hordered.stop_le_reach (Nat.le_of_lt_succ hi) hfound hslot).trans hreach
      · split at h
        · cases h
        · next hpassed =>
          rcases Nat.lt_or_eq_of_le (Nat.le_of_lt_succ hi) with hlower | rfl
          · exact ih (by omega) h i found hlower hfound
          · rw [hslot] at hfound
            exact Option.some.inj hfound ▸ not_lt.1 hpassed
    · next hnone =>
      rw [Array.getElem?_eq_none_iff] at hnone
      omega

end Slot

namespace Snapshot

/-! ### Owners of addresses -/

/-- The function to which an address belongs: of those around it the one that starts last. -/
structure IsOwner (snapshot : Snapshot) (address : Address) (entry : FunctionEntry) : Prop where
  mem : entry ∈ snapshot.functions
  covers : entry.covers address = true
  latest : ∀ other ∈ snapshot.functions, other.covers address = true → other.start ≤ entry.start

/-- The function to which an address belongs, found by looking at all functions. -/
def owner? (snapshot : Snapshot) (address : Address) : Option FunctionEntry :=
  snapshot.functions.find? fun entry => entry.covers address &&
    snapshot.functions.all fun other => !other.covers address || other.start ≤ entry.start

variable {snapshot : Snapshot} {address : Address} {entry other : FunctionEntry}

theorem WellFormed.eq_of_start_eq (hwf : snapshot.WellFormed) (hentry : entry ∈ snapshot.functions)
    (hother : other ∈ snapshot.functions) (h : entry.start = other.start) : entry = other :=
  List.inj_on_of_nodup_map hwf.nodup_starts hentry hother h

theorem IsOwner.unique (hwf : snapshot.WellFormed) (hentry : snapshot.IsOwner address entry)
    (hother : snapshot.IsOwner address other) : entry = other :=
  hwf.eq_of_start_eq hentry.mem hother.mem
    (le_antisymm (hother.latest entry hentry.mem hentry.covers)
      (hentry.latest other hother.mem hother.covers))

theorem eq_some_iff_isOwner (hwf : snapshot.WellFormed) {answer : Option FunctionEntry}
    (hsome : ∀ found, answer = some found → snapshot.IsOwner address found)
    (hnone : answer = none → ¬ snapshot.IsOwner address entry) :
    answer = some entry ↔ snapshot.IsOwner address entry := by
  refine ⟨hsome entry, fun howner => ?_⟩
  cases h : answer with
  | some found => rw [(hsome found h).unique hwf howner]
  | none => exact absurd howner (hnone h)

theorem owner?_eq_some_iff (hwf : snapshot.WellFormed) :
    snapshot.owner? address = some entry ↔ snapshot.IsOwner address entry := by
  refine eq_some_iff_isOwner hwf ?_ ?_
  · intro found hfound
    have htest := List.find?_some hfound
    rw [Bool.and_eq_true, List.all_eq_true] at htest
    refine ⟨List.mem_of_find?_eq_some hfound, htest.1, fun other hother hcovers => ?_⟩
    simpa [hcovers] using htest.2 other hother
  · intro hnone howner
    refine absurd ?_ (List.find?_eq_none.1 hnone entry howner.mem)
    rw [Bool.and_eq_true, List.all_eq_true]
    refine ⟨howner.covers, fun other hother => ?_⟩
    cases hcovers : other.covers address with
    | false => rfl
    | true => simpa using howner.latest other hother hcovers

theorem WellFormed.isOwner_start (hwf : snapshot.WellFormed) (hentry : entry ∈ snapshot.functions) :
    snapshot.IsOwner entry.start entry where
  mem := hentry
  covers := FunctionEntry.covers_iff.2 ⟨le_rfl, hwf.start_lt_stop entry hentry⟩
  latest := by
    intro other _ hcovers
    exact (FunctionEntry.covers_iff.1 hcovers).1

/-! ### The index of a snapshot -/

theorem mem_sortedFunctions : entry ∈ snapshot.sortedFunctions ↔ entry ∈ snapshot.functions :=
  List.mem_mergeSort

theorem WellFormed.pairwise_sortedFunctions (hwf : snapshot.WellFormed) :
    snapshot.sortedFunctions.Pairwise fun left right => left.start < right.start := by
  have hsorted : snapshot.sortedFunctions.Pairwise fun left right =>
      decide (left.start ≤ right.start) = true := by
    refine List.pairwise_mergeSort ?_ ?_ snapshot.functions
    · intro a b c hab hbc
      simp only [decide_eq_true_eq] at hab hbc ⊢
      exact hab.trans hbc
    · intro a b
      simpa using le_total a.start b.start
  have hdistinct : snapshot.sortedFunctions.Pairwise fun left right => left.start ≠ right.start :=
    List.pairwise_map.1 (((List.mergeSort_perm snapshot.functions _).map _).nodup_iff.2
      hwf.nodup_starts)
  refine (hsorted.and hdistinct).imp ?_
  rintro left right ⟨hle, hne⟩
  exact lt_of_le_of_ne (of_decide_eq_true hle) hne

theorem exists_slot_iff :
    (∃ (i : Nat) (slot : Slot), snapshot.index.slots[i]? = some slot ∧ slot.entry = entry) ↔
      entry ∈ snapshot.functions := by
  rw [← mem_sortedFunctions, ← Slot.map_entry_ofSorted (-1) snapshot.sortedFunctions, List.mem_map]
  simp only [index, List.getElem?_toArray]
  constructor
  · rintro ⟨i, slot, hslot, rfl⟩
    exact ⟨slot, List.mem_of_getElem? hslot, rfl⟩
  · rintro ⟨slot, hslot, rfl⟩
    obtain ⟨i, hi⟩ := List.mem_iff_getElem?.1 hslot
    exact ⟨i, slot, hi, rfl⟩

theorem covering_eq_some_iff (hwf : snapshot.WellFormed) :
    snapshot.index.covering address = some entry ↔ snapshot.IsOwner address entry := by
  have hordered : Slot.Ordered snapshot.index.slots :=
    Slot.ordered_ofSorted hwf.pairwise_sortedFunctions
  have hseparates : Slot.Separates snapshot.index.slots address
      (Slot.countStarted snapshot.index.slots address) := Slot.separates_countStarted hordered
  refine eq_some_iff_isOwner hwf ?_ ?_
  · intro found hfound
    obtain ⟨i, slot, hi, hslot, rfl, hstop, hlater⟩ := Slot.lastCovering_eq_some hfound
    have hstart : slot.entry.start ≤ address := (hseparates i slot hslot).2 hi
    refine ⟨exists_slot_iff.1 ⟨i, slot, hslot, rfl⟩, FunctionEntry.covers_iff.2 ⟨hstart, hstop⟩, ?_⟩
    intro other hother hcovers
    obtain ⟨hbegun, hbehind⟩ := FunctionEntry.covers_iff.1 hcovers
    obtain ⟨j, around, haround, rfl⟩ := exists_slot_iff.2 hother
    have hj := (hseparates j around haround).1 hbegun
    rcases Nat.lt_or_ge i j with hhigher | hlower
    · exact absurd hbehind (not_lt.2 (hlater j around hhigher hj haround))
    · exact hordered.start_le hlower haround hslot
  · intro hnone howner
    obtain ⟨hbegun, hbehind⟩ := FunctionEntry.covers_iff.1 howner.covers
    obtain ⟨i, slot, hslot, rfl⟩ := exists_slot_iff.2 howner.mem
    have hi := (hseparates i slot hslot).1 hbegun
    have hcount := Slot.countStarted_le_size snapshot.index.slots address
    have hpassed := Slot.lastCovering_eq_none hordered hcount hnone i slot hi hslot
    exact absurd hbehind (not_lt.2 hpassed)

theorem covering_eq_owner? (hwf : snapshot.WellFormed) (address : Address) :
    snapshot.index.covering address = snapshot.owner? address := by
  ext entry
  rw [covering_eq_some_iff hwf, owner?_eq_some_iff hwf]

end Snapshot

end CallGraph
