import CallGraph.Name.Canonical
import Mathlib.Data.List.TakeWhile

/-!
# Canonical names are their own canonical names

What makes a text canonical is that it has no blanks and, if it names an array accessor, that all of
its references are bracketed. The canonical name of any text is of this kind, and a text of this
kind is left alone by every pass.
-/

namespace CallGraph.Name

open CallGraph.Text

/-- A text that has all that the passes give a name. -/
structure IsCanonical (text : List Char) : Prop where
  isBlank_eq_false : ∀ c ∈ text, isBlank c = false
  bracketReferences_eq : isArrayAccessor text = true → bracketReferences text = text

/-! ### A canonical text is left alone -/

theorem removeBlanks_eq_self {text : List Char} (h : ∀ c ∈ text, isBlank c = false) :
    removeBlanks text = text := by
  rw [removeBlanks, List.filter_eq_self]
  exact fun c hc => by rw [h c hc]; rfl

theorem dropReturnType_eq_self {text : List Char} (h : ∀ c ∈ text, isBlank c = false) :
    dropReturnType text = text := by
  unfold dropReturnType
  split
  · rfl
  · next before after hcut =>
    have htext := eq_append_of_cut? hcut
    have hkept : before.reverse.takeWhile (fun c => !isBlank c) = before.reverse := by
      rw [List.takeWhile_eq_self_iff]
      intro c hc
      rw [h c (by rw [htext]; simp [List.mem_reverse.1 hc])]
      rfl
    have hbefore : text.take before.length = before := by
      rw [htext, List.append_assoc, List.take_left]
    calc (before.reverse.takeWhile fun c => !isBlank c).reverse ++ text.drop before.length
        = text.take before.length ++ text.drop before.length := by
          rw [hkept, List.reverse_reverse, hbefore]
      _ = text := List.take_append_drop ..

theorem IsCanonical.canonicalChars_eq_self {text : List Char} (h : IsCanonical text) :
    canonicalChars text = text := by
  rw [canonicalChars, dropReturnType_eq_self h.isBlank_eq_false, markArrayReferences]
  split
  · next haccessor =>
    rw [h.bracketReferences_eq haccessor, removeBlanks_eq_self h.isBlank_eq_false]
  · exact removeBlanks_eq_self h.isBlank_eq_false

/-! ### Canonical names are canonical -/

theorem removeBlanks_removeBlanks (text : List Char) :
    removeBlanks (removeBlanks text) = removeBlanks text :=
  removeBlanks_eq_self fun _ => isBlank_of_mem_removeBlanks

theorem isArrayAccessor_removeBlanks (text : List Char) :
    isArrayAccessor (removeBlanks text) = isArrayAccessor text := by
  rw [isArrayAccessor, isArrayAccessor, removeBlanks_removeBlanks]

/-- In front of a text without plain references, only a `&` makes one: a `[` that completed brackets
would have to stand in front of `]&`, whose reference is a plain one. -/
theorem bracketReferences_cons_eq_self {c : Char} {rest : List Char} (hc : c ≠ '&')
    (hrest : bracketReferences rest = rest) : bracketReferences (c :: rest) = c :: rest := by
  rw [bracketReferences.eq_def]
  split
  · next hopen =>
    obtain ⟨rfl, rfl⟩ := List.cons.inj hopen
    simp [bracketReferences] at hrest
  · next hreference => exact absurd (List.cons.inj hreference).1 hc
  · next hother =>
    obtain ⟨rfl, rfl⟩ := List.cons.inj hother
    rw [hrest]
  · next hnil => cases hnil

theorem bracketReferences_eq_self {text : List Char} (h : '&' ∉ text) :
    bracketReferences text = text := by
  induction text with
  | nil => rfl
  | cons c rest ih =>
    obtain ⟨hne, hrest⟩ := not_or.1 (mt List.mem_cons.2 h)
    exact bracketReferences_cons_eq_self (Ne.symm hne) (ih hrest)

theorem removeBlanks_reference (text : List Char) :
    removeBlanks ('[' :: ']' :: '&' :: text) = '[' :: ']' :: '&' :: removeBlanks text := rfl

/-- Once references are bracketed, dropping blanks leaves none to bracket: a `&` has its brackets
right before it, and no blank comes between them. -/
theorem bracketReferences_removeBlanks (text : List Char) :
    bracketReferences (removeBlanks (bracketReferences text)) =
      removeBlanks (bracketReferences text) := by
  fun_induction bracketReferences text with
  | case1 rest ih =>
    rw [removeBlanks_reference, bracketReferences, ih]
  | case2 rest ih =>
    rw [removeBlanks_reference, bracketReferences, ih]
  | case3 c rest hopen hplain ih =>
    by_cases hblank : isBlank c = true
    · have hdropped : removeBlanks (c :: bracketReferences rest) =
          removeBlanks (bracketReferences rest) := List.filter_cons_of_neg (by simp [hblank])
      rw [hdropped, ih]
    · have hkept : removeBlanks (c :: bracketReferences rest) =
          c :: removeBlanks (bracketReferences rest) := List.filter_cons_of_pos (by simp [hblank])
      rw [hkept, bracketReferences_cons_eq_self hplain ih]
  | case4 => rfl

theorem isCanonical_canonicalChars (text : List Char) : IsCanonical (canonicalChars text) where
  isBlank_eq_false _ := isBlank_of_mem_canonicalChars
  bracketReferences_eq := by
    rw [canonicalChars, markArrayReferences]
    split
    · exact fun _ => bracketReferences_removeBlanks _
    · next hplain =>
      intro haccessor
      rw [isArrayAccessor_removeBlanks] at haccessor
      exact absurd haccessor hplain

/-- Normalising a canonical name changes nothing. -/
theorem canonical_canonical (text : String) : canonical (canonical text) = canonical text := by
  rw [canonical, canonical, String.toList_ofList,
    (isCanonical_canonicalChars text.toList).canonicalChars_eq_self]

end CallGraph.Name
