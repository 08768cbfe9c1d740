import CallGraph.Text.Pattern

/-!
# Cutting a text at a pattern

A pattern is found where it stands first, and a cut there is the only one: nothing of the pattern's
occurrences lies further to the left. What a name holds before and behind a pattern can so be spoken of
without the search.
-/

namespace CallGraph.Text

variable {pattern text before after : List Char}

theorem occursIn_iff : occursIn pattern text = true ↔ pattern <:+: text := by
  induction text with
  | nil => simp [occursIn]
  | cons c rest ih =>
    rw [occursIn, Bool.or_eq_true, List.isPrefixOf_iff_prefix, ih, List.infix_cons_iff]

/-- What stands before and after the first occurrence of a pattern. -/
structure IsFirstCut (pattern text before after : List Char) : Prop where
  eq_append : text = before ++ pattern ++ after
  length_le : ∀ left right, text = left ++ pattern ++ right → before.length ≤ left.length

theorem length_le_of_cut? (h : cut? pattern text = some (before, after)) {left right : List Char}
    (htext : text = left ++ pattern ++ right) : before.length ≤ left.length := by
  induction text generalizing before left with
  | nil =>
    obtain ⟨hleft, -⟩ := List.append_eq_nil_iff.1 (eq_append_of_cut? h).symm
    rw [(List.append_eq_nil_iff.1 hleft).1]
    exact Nat.zero_le _
  | cons c rest ih =>
    rw [cut?] at h
    split at h
    · obtain ⟨rfl, -⟩ := Prod.mk.inj (Option.some.inj h)
      exact Nat.zero_le _
    · next hmissing =>
      obtain ⟨⟨inside, behind⟩, hcut, heq⟩ := Option.map_eq_some_iff.1 h
      obtain ⟨rfl, rfl⟩ := Prod.mk.inj heq
      -- The pattern does not stand at the front, so that any occurrence is one in the rest.
      cases left with
      | nil =>
        refine absurd (List.isPrefixOf_iff_prefix.2 ?_) hmissing
        exact ⟨right, htext.symm⟩
      | cons d others =>
        have hrest : rest = others ++ pattern ++ right := (List.cons.inj htext).2
        exact Nat.succ_le_succ (ih hcut hrest)

theorem cut?_eq_some_iff :
    cut? pattern text = some (before, after) ↔ IsFirstCut pattern text before after := by
  have hcut {left right : List Char} (h : cut? pattern text = some (left, right)) :
      IsFirstCut pattern text left right :=
    ⟨eq_append_of_cut? h, fun _ _ htext => length_le_of_cut? h htext⟩
  refine ⟨hcut, fun h => ?_⟩
  have hoccurs : occursIn pattern text = true :=
    occursIn_iff.2 ⟨before, after, h.eq_append.symm⟩
  rw [← isSome_cut?, Option.isSome_iff_exists] at hoccurs
  obtain ⟨⟨left, right⟩, hfound⟩ := hoccurs
  have hother := hcut hfound
  have hlength : left.length = before.length :=
    Nat.le_antisymm (hother.length_le _ _ h.eq_append) (h.length_le _ _ hother.eq_append)
  have hparts := hother.eq_append.symm.trans h.eq_append
  rw [List.append_assoc, List.append_assoc] at hparts
  obtain ⟨rfl, hbehind⟩ := List.append_inj hparts hlength
  rw [hfound, List.append_cancel_left hbehind]

theorem IsFirstCut.unique {left right : List Char} (h : IsFirstCut pattern text before after)
    (hother : IsFirstCut pattern text left right) : before = left ∧ after = right := by
  have hcut := cut?_eq_some_iff.2 h
  rw [cut?_eq_some_iff.2 hother] at hcut
  exact Prod.mk.inj (Option.some.inj hcut).symm

/-- A cut stays the first one when some of what stands before it is dropped. -/
theorem IsFirstCut.of_append {dropped : List Char}
    (h : IsFirstCut pattern (dropped ++ text) (dropped ++ before) after) :
    IsFirstCut pattern text before after where
  eq_append := by
    have hparts := h.eq_append
    rw [List.append_assoc, List.append_assoc] at hparts
    rw [List.append_cancel_left hparts, List.append_assoc]
  length_le left right htext := by
    have hlength := h.length_le (dropped ++ left) right (by rw [htext]; simp)
    rw [List.length_append, List.length_append] at hlength
    exact Nat.le_of_add_le_add_left hlength

/-- A pattern stands first where one of its characters does. -/
theorem IsFirstCut.of_mem {c : Char} (hc : c ∈ pattern) (hbefore : c ∉ before)
    (after : List Char) : IsFirstCut pattern (before ++ (pattern ++ after)) before after where
  eq_append := (List.append_assoc ..).symm
  length_le left right htext := by
    obtain ⟨front, back, rfl, hfront⟩ := List.eq_append_cons_of_mem hc
    refine Nat.le_of_not_lt fun hshort => ?_
    have hearlier : left ++ front ++ [c] <+: before ++ (front ++ c :: back ++ after) :=
      ⟨back ++ right, by rw [htext]; simp⟩
    have hmiddle : before ++ front <+: before ++ (front ++ c :: back ++ after) :=
      ⟨c :: back ++ after, by simp⟩
    have hlength : (left ++ front ++ [c]).length ≤ (before ++ front).length := by
      simp only [List.length_append, List.length_singleton]
      omega
    have hmem : c ∈ before ++ front :=
      (List.prefix_of_prefix_length_le hearlier hmiddle hlength).subset (by simp)
    exact (List.mem_append.1 hmem).elim hbefore hfront

end CallGraph.Text
