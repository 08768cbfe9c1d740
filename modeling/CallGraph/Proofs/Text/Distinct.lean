import Mathlib.Data.List.Basic
import Mathlib.Data.List.Induction
import Mathlib.Data.List.Nodup

/-!
# Distinct items in the order of first appearance

Graphs and batches of symbols list names without repetition, each where it first came up. As a later
item changes nothing before it, everything about such lists goes by induction from behind.
-/

namespace CallGraph

variable {α β : Type} [BEq α] [LawfulBEq α]

theorem eraseDups_concat (items : List α) (item : α) :
    (items ++ [item]).eraseDups =
      if item ∈ items.eraseDups then items.eraseDups else items.eraseDups ++ [item] := by
  rw [List.eraseDups_append]
  by_cases hitem : item ∈ items <;> simp [List.removeAll, List.eraseDups_cons, hitem]

theorem nodup_eraseDups (items : List α) : items.eraseDups.Nodup := by
  induction items using List.reverseRecOn with
  | nil => exact List.nodup_nil
  | append_singleton items item ih =>
    rw [eraseDups_concat]
    split
    · exact ih
    · next hnew =>
      rw [(List.perm_append_singleton _ _).nodup_iff, List.nodup_cons]
      exact ⟨hnew, ih⟩

theorem eraseDups_eq_self {items : List α} (h : items.Nodup) : items.eraseDups = items := by
  induction items using List.reverseRecOn with
  | nil => rfl
  | append_singleton items item ih =>
    rw [(List.perm_append_singleton _ _).nodup_iff, List.nodup_cons] at h
    rw [eraseDups_concat, ih h.2, if_neg h.1]

theorem eraseDups_eraseDups (items : List α) : items.eraseDups.eraseDups = items.eraseDups :=
  eraseDups_eq_self (nodup_eraseDups items)

theorem filter_eraseDups (keep : α → Bool) (items : List α) :
    items.eraseDups.filter keep = (items.filter keep).eraseDups := by
  induction items using List.reverseRecOn with
  | nil => rfl
  | append_singleton items item ih =>
    rw [eraseDups_concat, List.filter_append]
    cases hkeep : keep item with
    | false =>
      rw [List.filter_cons_of_neg (by simp [hkeep]), List.filter_nil, List.append_nil, ← ih]
      split
      · rfl
      · simp [hkeep]
    | true =>
      have hmem : item ∈ items.eraseDups.filter keep ↔ item ∈ items.eraseDups := by simp [hkeep]
      rw [List.filter_cons_of_pos hkeep, List.filter_nil, eraseDups_concat, ← ih]
      simp only [hmem]
      split
      · rfl
      · simp [hkeep]

/-- What is left of two lists in a row depends on what is left of each. -/
theorem eraseDups_append_congr {first first' second second' : List α}
    (hfirst : first.eraseDups = first'.eraseDups) (hsecond : second.eraseDups = second'.eraseDups) :
    (first ++ second).eraseDups = (first' ++ second').eraseDups := by
  have hmem (item : α) : item ∈ first ↔ item ∈ first' := by
    rw [← List.mem_eraseDups, hfirst, List.mem_eraseDups]
  have hremoved : second.removeAll first = second.filter fun item => item ∉ first' := by
    simp [List.removeAll, hmem]
  have hremoved' : second'.removeAll first' = second'.filter fun item => item ∉ first' := by
    simp [List.removeAll]
  rw [List.eraseDups_append, List.eraseDups_append, hfirst, hremoved, hremoved', ← filter_eraseDups,
    ← filter_eraseDups, hsecond]

theorem eraseDups_sublist (items : List α) : items.eraseDups.Sublist items := by
  induction items using List.reverseRecOn with
  | nil => exact .slnil
  | append_singleton items item ih =>
    rw [eraseDups_concat]
    split
    · exact ih.trans (List.sublist_append_left items [item])
    · exact ih.append (.refl [item])

/-- Items that are left over stand in the order in which they first come up among all of them. -/
theorem pairwise_idxOf_eraseDups_filter (keep : α → Bool) (items : List α) :
    (items.filter keep).eraseDups.Pairwise fun a b => items.idxOf a < items.idxOf b := by
  induction items generalizing keep with
  | nil => exact .nil
  | cons first rest ih =>
    -- Behind the first item, what is not the same has one place more in front of it.
    have hrest (keep : α → Bool) (hfirst : keep first = false) :
        (rest.filter keep).eraseDups.Pairwise fun a b =>
          (first :: rest).idxOf a < (first :: rest).idxOf b := by
      refine (ih keep).imp_of_mem ?_
      intro a b ha hb hless
      have hother (item : α) (hitem : item ∈ (rest.filter keep).eraseDups) : first ≠ item := by
        rintro rfl
        have hkept := (List.mem_filter.1 (List.mem_eraseDups.1 hitem)).2
        exact absurd (hfirst.symm.trans hkept) Bool.false_ne_true
      rw [List.idxOf_cons_ne rest (hother a ha), List.idxOf_cons_ne rest (hother b hb)]
      exact Nat.succ_lt_succ hless
    cases hkeep : keep first with
    | false =>
      rw [List.filter_cons_of_neg (by simp [hkeep])]
      exact hrest keep hkeep
    | true =>
      rw [List.filter_cons_of_pos hkeep, List.eraseDups_cons, List.filter_filter]
      refine List.pairwise_cons.2 ⟨?_, hrest _ (by simp)⟩
      intro item hitem
      have hdiffers := (List.mem_filter.1 (List.mem_eraseDups.1 hitem)).2
      have hother : first ≠ item := by
        rintro rfl
        simp at hdiffers
      rw [List.idxOf_cons_self, List.idxOf_cons_ne rest hother]
      exact Nat.succ_pos _

/-- Where the sources of items ascend, an item in front of another has a source that comes before
all sources of the other. -/
theorem pairwise_eraseDups_filterMap {before : β → β → Prop} (key : β → Option α)
    {sources : List β} (h : sources.Pairwise before) :
    (sources.filterMap key).eraseDups.Pairwise fun a b =>
      ∃ source ∈ sources, key source = some a ∧
        ∀ other ∈ sources, key other = some b → before source other := by
  induction sources using List.reverseRecOn with
  | nil => exact .nil
  | append_singleton sources last ih =>
    obtain ⟨hsources, -, hlast⟩ := List.pairwise_append.1 h
    have hlater : ∀ source ∈ sources, before source last :=
      fun source hsource => hlast source hsource last (List.mem_singleton.2 rfl)
    have hpresent : (sources.filterMap key).eraseDups.Pairwise fun a b =>
        ∃ source ∈ sources ++ [last], key source = some a ∧
          ∀ other ∈ sources ++ [last], key other = some b → before source other := by
      refine (ih hsources).imp ?_
      rintro a b ⟨source, hsource, ha, hb⟩
      refine ⟨source, List.mem_append_left _ hsource, ha, ?_⟩
      rw [List.forall_mem_append, List.forall_mem_singleton]
      exact ⟨hb, fun _ => hlater source hsource⟩
    rw [List.filterMap_append, List.filterMap_cons]
    cases hkey : key last with
    | none => simpa using hpresent
    | some item =>
      rw [List.filterMap_nil, eraseDups_concat]
      split
      · exact hpresent
      · next hnew =>
        -- The new item stands last, and the last source is its only one.
        rw [List.mem_eraseDups, List.mem_filterMap, not_exists] at hnew
        refine List.pairwise_append.2 ⟨hpresent, List.pairwise_singleton _ _, ?_⟩
        intro a ha b hb
        obtain rfl := List.mem_singleton.1 hb
        obtain ⟨source, hsource, hname⟩ := List.mem_filterMap.1 (List.mem_eraseDups.1 ha)
        refine ⟨source, List.mem_append_left _ hsource, hname, ?_⟩
        rw [List.forall_mem_append, List.forall_mem_singleton]
        exact ⟨fun other hother hsame => absurd ⟨hother, hsame⟩ (hnew other),
          fun _ => hlater source hsource⟩

end CallGraph
