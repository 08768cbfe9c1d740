import CallGraph.Text.Pattern
import Mathlib.Data.List.Basic

/-!
# Pieces of a text

The pieces of a text are free of the separator, and words that are free of it are got back from the text
that they make up.
-/

namespace CallGraph

namespace Text

theorem pieces_eq_singleton {separator : Char} {word : List Char} (h : separator ∉ word) :
    pieces separator word = [word] := by
  induction word with
  | nil => rfl
  | cons c rest ih =>
    rw [List.mem_cons, not_or] at h
    rw [pieces, if_neg (Ne.symm h.1), ih h.2]

theorem pieces_append_cons {separator : Char} {word : List Char} (h : separator ∉ word)
    (text : List Char) :
    pieces separator (word ++ separator :: text) = word :: pieces separator text := by
  induction word with
  | nil => rw [List.nil_append, pieces, if_pos rfl]
  | cons c rest ih =>
    rw [List.mem_cons, not_or] at h
    rw [List.cons_append, pieces, if_neg (Ne.symm h.1), ih h.2]

theorem mem_of_mem_intercalate {separator c : Char} {words : List (List Char)}
    (h : c ∈ [separator].intercalate words) : c = separator ∨ ∃ word ∈ words, c ∈ word := by
  induction words with
  | nil => exact absurd h List.not_mem_nil
  | cons word rest ih =>
    cases rest with
    | nil => exact .inr ⟨word, List.mem_singleton.2 rfl, by simpa using h⟩
    | cons next rest =>
      rw [List.intercalate_cons_cons, List.append_assoc, List.mem_append, List.singleton_append,
        List.mem_cons] at h
      rcases h with hword | hseparator | hrest
      · exact .inr ⟨word, List.mem_cons_self, hword⟩
      · exact .inl hseparator
      · refine (ih hrest).imp_right ?_
        rintro ⟨other, hother, hc⟩
        exact ⟨other, List.mem_cons_of_mem word hother, hc⟩

theorem infix_intercalate {word : List Char} {words : List (List Char)} (h : word ∈ words)
    (separator : List Char) : word <:+: separator.intercalate words := by
  induction words with
  | nil => cases h
  | cons first rest ih =>
    cases rest with
    | nil => simp [List.mem_singleton.1 h]
    | cons next rest =>
      rw [List.intercalate_cons_cons, List.append_assoc]
      rcases List.mem_cons.1 h with rfl | hrest
      · exact (List.prefix_append word _).isInfix
      · rw [← List.append_assoc]
        exact (ih hrest).trans (List.suffix_append (first ++ separator) _).isInfix

theorem pieces_intercalate {separator : Char} {words : List (List Char)} (hwords : words ≠ [])
    (h : ∀ word ∈ words, separator ∉ word) :
    pieces separator ([separator].intercalate words) = words := by
  induction words with
  | nil => exact absurd rfl hwords
  | cons word rest ih =>
    obtain ⟨hword, hrest⟩ := List.forall_mem_cons.1 h
    cases rest with
    | nil => rw [List.intercalate_singleton, pieces_eq_singleton hword]
    | cons next rest =>
      rw [List.intercalate_cons_cons, List.append_assoc, List.singleton_append,
        pieces_append_cons hword, ih (List.cons_ne_nil _ _) hrest]

/-- Words without a separator are the first pieces of what they make up with a separator behind each, whatever
follows them. -/
theorem pieces_flatMap_append {separator : Char} {words : List (List Char)}
    (h : ∀ word ∈ words, separator ∉ word) (text : List Char) :
    pieces separator ((words.flatMap fun word => word ++ [separator]) ++ text) =
      words ++ pieces separator text := by
  induction words with
  | nil => rfl
  | cons word rest ih =>
    obtain ⟨hword, hrest⟩ := List.forall_mem_cons.1 h
    rw [List.flatMap_cons, List.append_assoc, List.append_assoc, List.singleton_append,
      pieces_append_cons hword, ih hrest, List.cons_append]

end Text

end CallGraph
