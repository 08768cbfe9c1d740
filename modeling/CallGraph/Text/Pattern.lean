/-!
# Finding and replacing fixed patterns

A name gets another spelling by passes over its text, which look for a fixed pattern from the left,
take occurrences that do not overlap, and put other text in their place. The passes are structural
recursions on the text, so that a pass over a concrete name evaluates by `rfl`.
-/

namespace CallGraph.Text

/-- A text that says something; the empty one counts as none. -/
def nonEmpty (text : Option String) : Option String :=
  text.filter fun t => t != ""

/-- Whether the pattern occurs in the text; the empty pattern occurs in every text. -/
def occursIn (pattern : List Char) : List Char → Bool
  | [] => pattern.isEmpty
  | c :: rest => pattern.isPrefixOf (c :: rest) || occursIn pattern rest

/-- What stands before and after the first occurrence of the pattern. -/
def cut? (pattern : List Char) : List Char → Option (List Char × List Char)
  | [] => if pattern.isEmpty then some ([], []) else none
  | c :: rest =>
    if pattern.isPrefixOf (c :: rest) then
      some ([], (c :: rest).drop pattern.length)
    else
      (cut? pattern rest).map fun (before, after) => (c :: before, after)

/-- Replaces the occurrences of a non-empty pattern in the text that is left after skipping `skip`
characters; the skipped characters are those of an occurrence that has been replaced already. -/
def replaceFrom (pattern replacement : List Char) : Nat → List Char → List Char
  | _, [] => []
  | skip + 1, _ :: rest => replaceFrom pattern replacement skip rest
  | 0, c :: rest =>
    if pattern.isPrefixOf (c :: rest) then
      replacement ++ replaceFrom pattern replacement (pattern.length - 1) rest
    else
      c :: replaceFrom pattern replacement 0 rest

/-- Replaces every occurrence of a non-empty pattern, from the left and without overlaps. -/
def replaceAll (pattern replacement text : List Char) : List Char :=
  replaceFrom pattern replacement 0 text

/-- The pieces of the text between the occurrences of one character. There is always one more piece
than there are occurrences. -/
def pieces (separator : Char) : List Char → List (List Char)
  | [] => [[]]
  | c :: rest =>
    if c = separator then
      [] :: pieces separator rest
    else
      match pieces separator rest with
      | [] => [[c]]
      | piece :: more => (c :: piece) :: more

theorem nonEmpty_eq_some_iff {text : Option String} {found : String} :
    nonEmpty text = some found ↔ text = some found ∧ found ≠ "" := by
  simp [nonEmpty, Option.filter_eq_some_iff]

/-- The parts around a cut give the text back. -/
theorem eq_append_of_cut? {pattern text before after : List Char}
    (h : cut? pattern text = some (before, after)) : text = before ++ pattern ++ after := by
  induction text generalizing before with
  | nil =>
    cases pattern with
    | nil => simp_all [cut?]
    | cons _ _ => simp [cut?] at h
  | cons c rest ih =>
    simp only [cut?] at h
    split at h
    · next found =>
      obtain ⟨tail, htail⟩ := List.isPrefixOf_iff_prefix.1 found
      simp only [Option.some.injEq, Prod.mk.injEq] at h
      obtain ⟨rfl, rfl⟩ := h
      simp [← htail]
    · obtain ⟨⟨b, a⟩, hcut, heq⟩ := Option.map_eq_some_iff.1 h
      simp only [Prod.mk.injEq] at heq
      obtain ⟨rfl, rfl⟩ := heq
      simpa using ih hcut

/-- A cut exists exactly when the pattern occurs. -/
theorem isSome_cut? (pattern text : List Char) :
    (cut? pattern text).isSome = occursIn pattern text := by
  induction text with
  | nil => cases pattern <;> simp [cut?, occursIn]
  | cons c rest ih =>
    simp only [cut?, occursIn]
    split
    · next found => simp [found]
    · next missing => simp [missing, ih]

end CallGraph.Text
