import CallGraph.Proofs.Text.Cutting
import Mathlib.Data.List.Basic

/-!
# Replacing a pattern

A pass that replaces a pattern is taken apart at the occurrences that it finds: a text is empty, or it starts with
the pattern, or it starts with a character that stays. Everything about replaced texts goes by these three cases.
-/

namespace CallGraph.Text

variable {pattern replacement text : List Char}

@[simp] theorem replaceAll_nil : replaceAll pattern replacement [] = [] := rfl

theorem replaceFrom_append (skipped rest : List Char) :
    replaceFrom pattern replacement skipped.length (skipped ++ rest) =
      replaceAll pattern replacement rest := by
  induction skipped with
  | nil => rfl
  | cons c skipped ih => exact ih

theorem replaceAll_append (hpattern : pattern ≠ []) (rest : List Char) :
    replaceAll pattern replacement (pattern ++ rest) =
      replacement ++ replaceAll pattern replacement rest := by
  obtain ⟨c, others, rfl⟩ := List.exists_cons_of_ne_nil hpattern
  have hfound : (c :: others).isPrefixOf (c :: (others ++ rest)) = true :=
    List.isPrefixOf_iff_prefix.2 (List.prefix_append (c :: others) rest)
  rw [List.cons_append, replaceAll, replaceFrom, if_pos hfound, List.length_cons,
    Nat.add_sub_cancel, replaceFrom_append]

theorem replaceAll_cons {c : Char} {rest : List Char} (h : ¬ pattern <+: c :: rest) :
    replaceAll pattern replacement (c :: rest) = c :: replaceAll pattern replacement rest := by
  rw [replaceAll, replaceFrom, if_neg (mt List.isPrefixOf_iff_prefix.1 h)]
  rfl

/-- Induction along the pass that looks for a pattern. -/
@[elab_as_elim]
theorem replaceAll_induction {motive : List Char → Prop} (hpattern : pattern ≠ [])
    (nil : motive [])
    (found : ∀ rest, motive rest → motive (pattern ++ rest))
    (kept : ∀ c rest, ¬ pattern <+: c :: rest → motive rest → motive (c :: rest))
    (text : List Char) : motive text := by
  induction hlength : text.length using Nat.strongRecOn generalizing text with
  | ind length ih =>
    by_cases hfound : pattern <+: text
    · obtain ⟨rest, rfl⟩ := hfound
      have hpositive := List.length_pos_iff.2 hpattern
      rw [List.length_append] at hlength
      exact found rest (ih rest.length (by omega) rest rfl)
    · cases text with
      | nil => exact nil
      | cons c rest =>
        rw [List.length_cons] at hlength
        exact kept c rest hfound (ih rest.length (by omega) rest rfl)

/-- An occurrence does not reach over a character that the pattern is free of. -/
theorem prefix_of_prefix_append_cons {separator : Char} {rest : List Char}
    (hseparator : separator ∉ pattern) (h : pattern <+: text ++ separator :: rest) :
    pattern <+: text := by
  rcases Nat.lt_or_ge text.length pattern.length with hlong | hshort
  · have hfront : text ++ [separator] <+: text ++ separator :: rest := ⟨rest, by simp⟩
    have hinside : text ++ [separator] <+: pattern :=
      List.prefix_of_prefix_length_le hfront h (by rw [List.length_append]; exact hlong)
    exact absurd (hinside.subset (by simp)) hseparator
  · exact List.prefix_of_prefix_length_le h (List.prefix_append text _) hshort

theorem replaceAll_append_cons {separator : Char} (hpattern : pattern ≠ [])
    (hseparator : separator ∉ pattern) (text rest : List Char) :
    replaceAll pattern replacement (text ++ separator :: rest) =
      replaceAll pattern replacement text ++ separator :: replaceAll pattern replacement rest := by
  induction text using replaceAll_induction hpattern with
  | nil =>
    have hmissing : ¬ pattern <+: [] ++ separator :: rest := fun h =>
      hpattern (List.prefix_nil.1 (prefix_of_prefix_append_cons hseparator h))
    rw [List.nil_append] at hmissing
    rw [List.nil_append, replaceAll_cons hmissing, replaceAll_nil, List.nil_append]
  | found tail ih =>
    rw [List.append_assoc, replaceAll_append hpattern, ih, replaceAll_append hpattern,
      List.append_assoc]
  | kept c tail hmissing ih =>
    have hlonger : ¬ pattern <+: c :: (tail ++ separator :: rest) := fun h =>
      hmissing (prefix_of_prefix_append_cons hseparator h)
    rw [List.cons_append, replaceAll_cons hlonger, ih, replaceAll_cons hmissing, List.cons_append]

theorem mem_of_mem_replaceAll (hpattern : pattern ≠ []) {c : Char}
    (h : c ∈ replaceAll pattern replacement text) : c ∈ replacement ∨ c ∈ text := by
  induction text using replaceAll_induction hpattern with
  | nil => exact .inr h
  | found rest ih =>
    rw [replaceAll_append hpattern, List.mem_append] at h
    exact h.elim .inl fun hrest => (ih hrest).imp_right (List.mem_append_right pattern)
  | kept d rest hmissing ih =>
    rw [replaceAll_cons hmissing, List.mem_cons] at h
    rcases h with rfl | hrest
    · exact .inr List.mem_cons_self
    · exact (ih hrest).imp_right (List.mem_cons_of_mem d)

theorem replaceAll_self (hpattern : pattern ≠ []) (text : List Char) :
    replaceAll pattern pattern text = text := by
  induction text using replaceAll_induction hpattern with
  | nil => rfl
  | found rest ih => rw [replaceAll_append hpattern, ih]
  | kept c rest hmissing ih => rw [replaceAll_cons hmissing, ih]

theorem length_replaceAll_le (hpattern : pattern ≠ [])
    (hshort : replacement.length ≤ pattern.length) (text : List Char) :
    (replaceAll pattern replacement text).length ≤ text.length := by
  induction text using replaceAll_induction hpattern with
  | nil => exact Nat.le_refl _
  | found rest ih =>
    rw [replaceAll_append hpattern, List.length_append, List.length_append]
    exact Nat.add_le_add hshort ih
  | kept c rest hmissing ih =>
    rw [replaceAll_cons hmissing]
    exact Nat.succ_le_succ ih

/-- A mark in place of a pattern changes every text in which the pattern occurs, unless the pattern is the mark. -/
theorem replaceAll_mark_eq_self_iff {mark : Char} (hpattern : pattern ≠ []) :
    replaceAll pattern [mark] text = text ↔ pattern = [mark] ∨ ¬ pattern <:+: text := by
  induction text using replaceAll_induction hpattern with
  | nil => simp [hpattern]
  | found rest ih =>
    have hinfix : pattern <:+: pattern ++ rest := (List.prefix_append pattern rest).isInfix
    rw [replaceAll_append hpattern, or_iff_left (not_not.2 hinfix)]
    constructor
    · intro hsame
      have hpositive : [mark].length ≤ pattern.length := List.length_pos_iff.2 hpattern
      have hshorter : (replaceAll pattern [mark] rest).length ≤ rest.length :=
        length_replaceAll_le hpattern hpositive rest
      have hlength := congrArg List.length hsame
      rw [List.length_append, List.length_append] at hlength
      have hone : [mark].length = pattern.length := by omega
      exact (List.append_inj hsame hone).1.symm
    · rintro rfl
      rw [replaceAll_self hpattern]
  | kept c rest hmissing ih =>
    rw [replaceAll_cons hmissing, List.cons_inj_right, ih, List.infix_cons_iff]
    simp [hmissing]

/-! ### Where a pattern does not occur -/

theorem not_cons_prefix_cons {c d : Char} (h : c ≠ d) (others rest : List Char) :
    ¬ c :: others <+: d :: rest := fun hprefix =>
  h (List.cons_prefix_cons.1 hprefix).1

theorem replaceAll_eq_self (h : ¬ pattern <:+: text) : replaceAll pattern replacement text = text := by
  induction text with
  | nil => rfl
  | cons c rest ih =>
    rw [List.infix_cons_iff, not_or] at h
    rw [replaceAll_cons h.1, ih h.2]

/-- An occurrence lies behind a text that is free of its first character. -/
theorem cons_infix_append_iff {c : Char} {others front : List Char} (h : c ∉ front)
    (rest : List Char) : c :: others <:+: front ++ rest ↔ c :: others <:+: rest := by
  induction front with
  | nil => rfl
  | cons d front ih =>
    obtain ⟨hne, hfront⟩ := not_or.1 (mt List.mem_cons.2 h)
    rw [List.cons_append, List.infix_cons_iff, or_iff_right (not_cons_prefix_cons hne _ _),
      ih hfront]

theorem not_infix_of_not_mem {c : Char} (hc : c ∈ pattern) (h : c ∉ text) :
    ¬ pattern <:+: text := fun hoccurs =>
  h (hoccurs.subset hc)

/-- Two characters do not come to stand side by side where something else is put between them. -/
theorem not_pair_infix {c d : Char} {front between back : List Char} (hfront : c ∉ front)
    (hbetween : between ≠ []) (hc : c ∉ between) (hd : d ∉ between) (hback : ¬ [c, d] <:+: back) :
    ¬ [c, d] <:+: front ++ c :: (between ++ back) := by
  obtain ⟨e, others, rfl⟩ := List.exists_cons_of_ne_nil hbetween
  have hmissing : ¬ [c, d] <+: c :: (e :: others ++ back) := by
    have hfirst : d ≠ e := fun heq => hd (heq ▸ List.mem_cons_self)
    rw [List.cons_prefix_cons, not_and]
    exact fun _ => not_cons_prefix_cons hfirst _ _
  rw [cons_infix_append_iff hfront, List.infix_cons_iff, or_iff_right hmissing,
    cons_infix_append_iff hc]
  exact hback

/-- No occurrence reaches over a character that the pattern is free of. -/
theorem infix_append_cons_iff {separator : Char} (hpattern : pattern ≠ [])
    (hseparator : separator ∉ pattern) (text rest : List Char) :
    pattern <:+: text ++ separator :: rest ↔ pattern <:+: text ∨ pattern <:+: rest := by
  induction text with
  | nil =>
    have hmissing : ¬ pattern <+: [] ++ separator :: rest := fun h =>
      hpattern (List.prefix_nil.1 (prefix_of_prefix_append_cons hseparator h))
    rw [List.nil_append] at hmissing
    rw [List.nil_append, List.infix_cons_iff, List.infix_nil, or_iff_right hmissing,
      or_iff_right hpattern]
  | cons c text ih =>
    have hfront : pattern <+: c :: text ++ separator :: rest ↔ pattern <+: c :: text :=
      ⟨prefix_of_prefix_append_cons hseparator,
        fun h => h.trans (List.prefix_append (c :: text) (separator :: rest))⟩
    rw [List.cons_append] at hfront
    rw [List.cons_append, List.infix_cons_iff, List.infix_cons_iff, hfront, ih, or_assoc]

theorem infix_append_append_iff {boundary : List Char} (hpattern : pattern ≠ [])
    (hboundary : boundary ≠ []) (h : ∀ c ∈ boundary, c ∉ pattern) (text rest : List Char) :
    pattern <:+: text ++ (boundary ++ rest) ↔ pattern <:+: text ∨ pattern <:+: rest := by
  induction boundary generalizing text with
  | nil => exact absurd rfl hboundary
  | cons c boundary ih =>
    obtain ⟨hc, hothers⟩ := List.forall_mem_cons.1 h
    rw [List.cons_append, infix_append_cons_iff hpattern hc]
    cases boundary with
    | nil => rw [List.nil_append]
    | cons d others =>
      have hrest := ih (List.cons_ne_nil d others) hothers []
      rw [List.nil_append, List.infix_nil, or_iff_right hpattern] at hrest
      rw [hrest]

/-! ### Where a pattern occurs first -/

theorem replaceAll_append_of_not_mem {c : Char} {others front : List Char} (h : c ∉ front)
    (rest : List Char) : replaceAll (c :: others) replacement (front ++ rest) =
      front ++ replaceAll (c :: others) replacement rest := by
  induction front with
  | nil => rfl
  | cons d front ih =>
    obtain ⟨hne, hfront⟩ := not_or.1 (mt List.mem_cons.2 h)
    rw [List.cons_append, replaceAll_cons (not_cons_prefix_cons hne _ _), ih hfront,
      List.cons_append]

theorem replaceAll_of_isFirstCut (hpattern : pattern ≠ []) {before after : List Char}
    (h : IsFirstCut pattern text before after) :
    replaceAll pattern replacement text =
      before ++ replacement ++ replaceAll pattern replacement after := by
  induction before generalizing text with
  | nil =>
    rw [h.eq_append, List.nil_append, replaceAll_append hpattern, List.nil_append]
  | cons c before ih =>
    obtain ⟨rest, rfl⟩ : ∃ rest, text = c :: rest := ⟨_, h.eq_append⟩
    have hmissing : ¬ pattern <+: c :: rest := by
      rintro ⟨tail, htail⟩
      exact absurd (h.length_le [] tail htail.symm) (by simp)
    have hbehind : IsFirstCut pattern ([c] ++ rest) ([c] ++ before) after := h
    rw [replaceAll_cons hmissing, ih hbehind.of_append]
    rfl

theorem replaceAll_once {c : Char} (hc : c ∈ pattern) {before after : List Char}
    (hbefore : c ∉ before) (hafter : c ∉ after) :
    replaceAll pattern replacement (before ++ (pattern ++ after)) =
      before ++ (replacement ++ after) := by
  rw [replaceAll_of_isFirstCut (List.ne_nil_of_mem hc) (.of_mem hc hbefore after),
    replaceAll_eq_self (not_infix_of_not_mem hc hafter), List.append_assoc]

end CallGraph.Text
