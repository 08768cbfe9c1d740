import CallGraph.Proofs.Name.Idempotence
import CallGraph.Proofs.Text.Cutting

/-!
# The form of canonical names

What a canonical name looks like is said here of its text alone, without the passes: it has no blanks,
it starts behind the return type, and where `TryGet` and behind it `Array` stand in it, every reference
has brackets. Of all other names the text is kept but for the blanks.
-/

namespace CallGraph.Name

open CallGraph.Text

/-! ### Array accessors -/

/-- In the text stands `TryGet` and, somewhere behind it, `Array`. -/
def NamesArrayAccessor (text : List Char) : Prop :=
  ∃ before between after,
    text = before ++ "TryGet".toList ++ between ++ "Array".toList ++ after

/-- It is enough to look behind the first `TryGet`: what stands behind a later one stands behind that, too. -/
theorem isArrayAccessor_iff {text : List Char} :
    isArrayAccessor text = true ↔ NamesArrayAccessor (removeBlanks text) := by
  unfold isArrayAccessor
  split
  · next hmissing =>
    rw [Bool.false_eq_true, false_iff]
    rintro ⟨before, between, after, htext⟩
    have hoccurs : occursIn "TryGet".toList (removeBlanks text) = true :=
      occursIn_iff.2 ⟨before, between ++ "Array".toList ++ after, by rw [htext]; simp⟩
    rw [← isSome_cut?, hmissing] at hoccurs
    cases hoccurs
  · next before after hcut =>
    rw [cut?_eq_some_iff] at hcut
    rw [occursIn_iff]
    constructor
    · rintro ⟨between, behind, rfl⟩
      exact ⟨before, between, behind, by rw [hcut.eq_append]; simp⟩
    · rintro ⟨left, between, behind, htext⟩
      have hlength := hcut.length_le left (between ++ "Array".toList ++ behind) (by rw [htext]; simp)
      have hparts : before ++ "TryGet".toList ++ after =
          left ++ "TryGet".toList ++ (between ++ "Array".toList ++ behind) := by
        rw [← hcut.eq_append, htext]
        simp
      have hsuffix : between ++ "Array".toList ++ behind <:+ after := by
        have hbehind : between ++ "Array".toList ++ behind <:+ removeBlanks text :=
          ⟨left ++ "TryGet".toList, by rw [htext]; simp⟩
        have hafter : after <:+ removeBlanks text :=
          ⟨before ++ "TryGet".toList, hcut.eq_append.symm⟩
        have hlengths := congrArg List.length hparts
        simp only [List.length_append] at hlengths
        refine List.suffix_of_suffix_length_le hbehind hafter ?_
        simp only [List.length_append]
        omega
      obtain ⟨skipped, rfl⟩ := hsuffix
      exact ⟨skipped ++ between, behind, by simp⟩

/-! ### Return types -/

/-- What stands behind the last blank of a text. -/
def lastWord (text : List Char) : List Char :=
  (text.reverse.takeWhile fun c => !isBlank c).reverse

theorem lastWord_suffix (text : List Char) : lastWord text <:+ text := by
  rw [← List.reverse_prefix, lastWord, List.reverse_reverse]
  exact List.takeWhile_prefix _

theorem isBlank_of_mem_lastWord {c : Char} {text : List Char} (h : c ∈ lastWord text) :
    isBlank c = false := by
  simpa using List.mem_takeWhile_imp (List.mem_reverse.1 h)

theorem dropReturnType_of_isFirstCut {text before after : List Char}
    (h : IsFirstCut "::".toList text before after) :
    dropReturnType text = lastWord before ++ "::".toList ++ after := by
  have hkept : text.drop before.length = "::".toList ++ after := by
    rw [h.eq_append, List.append_assoc, List.drop_left]
  rw [dropReturnType, cut?_eq_some_iff.2 h]
  dsimp only
  rw [hkept, lastWord, List.append_assoc]

theorem dropReturnType_suffix (text : List Char) : dropReturnType text <:+ text := by
  cases hcut : cut? "::".toList text with
  | none =>
    have hwhole : dropReturnType text = text := by simp only [dropReturnType, hcut]
    exact ⟨[], hwhole⟩
  | some parts =>
    have hfirst := cut?_eq_some_iff.1 hcut
    obtain ⟨dropped, hdropped⟩ := lastWord_suffix parts.1
    refine ⟨dropped, ?_⟩
    calc dropped ++ dropReturnType text
        = dropped ++ lastWord parts.1 ++ "::".toList ++ parts.2 := by
          rw [dropReturnType_of_isFirstCut hfirst]
          simp
      _ = text := by rw [hdropped, ← hfirst.eq_append]

/-- No blank is left in front of the first `::`, as that is still the first one of the whole text. -/
theorem isBlank_of_isFirstCut_dropReturnType {text before after : List Char}
    (h : IsFirstCut "::".toList (dropReturnType text) before after) :
    ∀ c ∈ before, isBlank c = false := by
  cases hcut : cut? "::".toList text with
  | none =>
    rw [dropReturnType, hcut, ← cut?_eq_some_iff, hcut] at h
    cases h
  | some parts =>
    have hfirst := cut?_eq_some_iff.1 hcut
    have hrest := dropReturnType_of_isFirstCut hfirst
    obtain ⟨dropped, hdropped⟩ := lastWord_suffix parts.1
    have hkept : IsFirstCut "::".toList (dropReturnType text) (lastWord parts.1) parts.2 := by
      apply IsFirstCut.of_append
      rwa [hrest, ← List.append_assoc, ← List.append_assoc, hdropped, ← hfirst.eq_append]
    obtain ⟨rfl, -⟩ := h.unique hkept
    exact fun c hc => isBlank_of_mem_lastWord hc

/-! ### References -/

theorem brackets_suffix_of_bracketReferences {text before after : List Char}
    (h : bracketReferences text = before ++ '&' :: after) : ['[', ']'] <:+ before := by
  -- A `&` that the pass has written, and any that it has left, comes right behind brackets.
  have hwritten {rest before : List Char}
      (hrest : ∀ {inside}, bracketReferences rest = inside ++ '&' :: after → ['[', ']'] <:+ inside)
      (heq : '[' :: ']' :: '&' :: bracketReferences rest = before ++ '&' :: after) :
      ['[', ']'] <:+ before := by
    rcases before with _ | ⟨first, _ | ⟨second, _ | ⟨third, inside⟩⟩⟩
    · simp at heq
    · simp at heq
    · simp only [List.cons_append, List.nil_append, List.cons.injEq] at heq
      obtain ⟨rfl, rfl, -⟩ := heq
      exact List.suffix_rfl
    · simp only [List.cons_append, List.cons.injEq] at heq
      exact (hrest heq.2.2.2).trans (List.suffix_append [first, second, third] inside)
  fun_induction bracketReferences text generalizing before with
  | case1 rest ih => exact hwritten (fun hinside => ih hinside) h
  | case2 rest ih => exact hwritten (fun hinside => ih hinside) h
  | case3 c rest hopen hplain ih =>
    cases before with
    | nil => exact absurd (List.cons.inj h).1 hplain
    | cons d inside =>
      exact (ih (List.cons.inj h).2).trans (List.suffix_cons d inside)
  | case4 => simp at h

/-! ### Canonical names -/

/-- A canonical name has no blanks, and is its own canonical name. It is made from the end of the text
that is left without the return type, in which no blank precedes the first `::`. In an array accessor,
every reference has brackets right in front of it; of any other name all is kept but for the blanks. -/
theorem canonical_form (text : String) :
    (∀ c ∈ (canonical text).toList, isBlank c = false) ∧
      canonical (canonical text) = canonical text ∧
      (withoutReturnType text).toList <:+ text.toList ∧
      (∀ before after, IsFirstCut "::".toList (withoutReturnType text).toList before after →
        ∀ c ∈ before, isBlank c = false) ∧
      (NamesArrayAccessor (withoutBlanks (withoutReturnType text)).toList →
        ∀ before after, (canonical text).toList = before ++ '&' :: after → ['[', ']'] <:+ before) ∧
      (¬ NamesArrayAccessor (withoutBlanks (withoutReturnType text)).toList →
        canonical text = withoutBlanks (withoutReturnType text)) := by
  have hchars : (canonical text).toList = canonicalChars text.toList := String.toList_ofList
  have hrest : (withoutReturnType text).toList = dropReturnType text.toList := String.toList_ofList
  have hplain : (withoutBlanks (withoutReturnType text)).toList =
      removeBlanks (dropReturnType text.toList) := by
    rw [withoutBlanks, String.toList_ofList, hrest]
  rw [hchars, hrest, hplain, ← isArrayAccessor_iff]
  refine ⟨fun c hc => isBlank_of_mem_canonicalChars hc, canonical_canonical text,
    dropReturnType_suffix _, fun _ _ hcut => isBlank_of_isFirstCut_dropReturnType hcut, ?_, ?_⟩
  · intro haccessor before after hreference
    rw [canonicalChars, markArrayReferences, if_pos haccessor,
      ← bracketReferences_removeBlanks] at hreference
    exact brackets_suffix_of_bracketReferences hreference
  · intro hother
    rw [← String.toList_inj, hchars, hplain, canonicalChars, markArrayReferences, if_neg hother]

theorem canonical_form_accessor :
    NamesArrayAccessor
        (withoutBlanks (withoutReturnType "bool Bag::Try Get Array(Item & [] &)")).toList ∧
      ∀ before after, (canonical "bool Bag::Try Get Array(Item & [] &)").toList =
        before ++ '&' :: after → ['[', ']'] <:+ before := by
  have haccessor : NamesArrayAccessor
      (withoutBlanks (withoutReturnType "bool Bag::Try Get Array(Item & [] &)")).toList :=
    ⟨"Bag::".toList, [], "(Item&[]&)".toList, by decide +kernel⟩
  obtain ⟨-, -, -, -, hreferences, -⟩ := canonical_form "bool Bag::Try Get Array(Item & [] &)"
  exact ⟨haccessor, hreferences haccessor⟩

end CallGraph.Name
