import CallGraph.Proofs.Name.Form

/-!
# Canonical names and layout

Blanks are dropped last, behind the pass that brackets references, so that a canonical name depends on
them in one way: brackets that are there already are only seen where no blank stands among them and the
reference. Such split brackets are the one thing by which two spellings of a name are told apart.
-/

namespace CallGraph.Name

open CallGraph.Text

/-- The text starts with the brackets of a reference, and at least one blank stands among them and it. -/
def OpensSplit (text : List Char) : Prop :=
  ∃ inner outer after, text = '[' :: inner ++ ']' :: outer ++ '&' :: after ∧
    (∀ c ∈ inner ++ outer, isBlank c = true) ∧ inner ++ outer ≠ []

/-- Somewhere in the text, a reference is split from its brackets or these from each other by blanks. -/
def SplitsBrackets (text : List Char) : Prop :=
  ∃ tail, tail <:+ text ∧ OpensSplit tail

theorem not_splitsBrackets_nil : ¬ SplitsBrackets [] := by
  rintro ⟨tail, htail, inner, outer, after, rfl, -⟩
  simp at htail

theorem splitsBrackets_cons_iff {c : Char} {rest : List Char} :
    SplitsBrackets (c :: rest) ↔ OpensSplit (c :: rest) ∨ SplitsBrackets rest := by
  simp only [SplitsBrackets, List.suffix_cons_iff, or_and_right, exists_or, exists_eq_left]

theorem not_opensSplit_cons {c : Char} (hc : c ≠ '[') (rest : List Char) :
    ¬ OpensSplit (c :: rest) := by
  rintro ⟨inner, outer, after, htext, -⟩
  exact hc (List.cons.inj htext).1

/-- Brackets are split where they come to stand at the reference by dropping blanks. -/
theorem opensSplit_iff {rest : List Char} :
    OpensSplit ('[' :: rest) ↔
      (∃ tail, removeBlanks rest = ']' :: '&' :: tail) ∧ ∀ tail, rest ≠ ']' :: '&' :: tail := by
  constructor
  · rintro ⟨inner, outer, after, htext, hblanks, hsplit⟩
    obtain rfl : rest = inner ++ ']' :: outer ++ '&' :: after := (List.cons.inj htext).2
    rw [List.forall_mem_append] at hblanks
    have hdropped {blanks : List Char} (h : ∀ c ∈ blanks, isBlank c = true) :
        removeBlanks blanks = [] := by
      simpa [removeBlanks] using h
    refine ⟨⟨removeBlanks after, ?_⟩, fun tail htail => hsplit ?_⟩
    · have hclosing : removeBlanks (']' :: outer) = ']' :: removeBlanks outer := rfl
      have hreference : removeBlanks ('&' :: after) = '&' :: removeBlanks after := rfl
      rw [removeBlanks_append, removeBlanks_append, hclosing, hreference, hdropped hblanks.1,
        hdropped hblanks.2]
      rfl
    · -- What stands in front of a bracket and of a `&` would have to be blank.
      cases inner with
      | cons c others =>
        have hc : c = ']' := (List.cons.inj htail).1
        have hblank := hblanks.1 c (List.mem_cons_self ..)
        rw [hc] at hblank
        exact absurd hblank (by decide)
      | nil =>
        cases outer with
        | nil => rfl
        | cons c others =>
          have hc : c = '&' := (List.cons.inj (List.cons.inj htail).2).1
          have hblank := hblanks.2 c (List.mem_cons_self ..)
          rw [hc] at hblank
          exact absurd hblank (by decide)
  · rintro ⟨⟨tail, htail⟩, hapart⟩
    obtain ⟨inner, behind, rfl, hinner, -, hbehind⟩ := List.filter_eq_cons_iff.1 htail
    obtain ⟨outer, after, rfl, houter, -, -⟩ := List.filter_eq_cons_iff.1 hbehind
    refine ⟨inner, outer, after, by simp, ?_, fun hnone => ?_⟩
    · rw [List.forall_mem_append]
      exact ⟨fun c hc => by simpa using hinner c hc, fun c hc => by simpa using houter c hc⟩
    · obtain ⟨rfl, rfl⟩ := List.append_eq_nil_iff.1 hnone
      exact hapart after rfl

/-! ### Bracketing and blanks -/

theorem removeBlanks_cons_of_isBlank {c : Char} (hc : isBlank c = true) (rest : List Char) :
    removeBlanks (c :: rest) = removeBlanks rest :=
  List.filter_cons_of_neg (by simp [hc])

theorem removeBlanks_cons_of_not_isBlank {c : Char} (hc : isBlank c = false) (rest : List Char) :
    removeBlanks (c :: rest) = c :: removeBlanks rest :=
  List.filter_cons_of_pos (by simp [hc])

theorem bracketReferences_cons {c : Char} (hc : c ≠ '&') {rest : List Char}
    (hrest : c = '[' → ∀ tail, rest ≠ ']' :: '&' :: tail) :
    bracketReferences (c :: rest) = c :: bracketReferences rest := by
  rw [bracketReferences]
  · exact fun tail hopen hbehind => hrest hopen tail hbehind
  · exact hc

/-- In front of a bracketed text no `]` stands right before a `&`. -/
theorem removeBlanks_bracketReferences_ne (rest tail : List Char) :
    removeBlanks (bracketReferences rest) ≠ ']' :: '&' :: tail := by
  intro h
  have hbracketed := bracketReferences_removeBlanks rest
  rw [h, bracketReferences_cons (by decide) (fun hopen => absurd hopen (by decide))] at hbracketed
  simp [bracketReferences] at hbracketed

/-- The text is gone through from the left. A reference with its brackets right before it, a bare one
and a blank are alike with and without blanks; so is any other character, but for a `[` that opens split
brackets: with blanks these get others, and without them they do not. -/
theorem removeBlanks_bracketReferences_iff (text : List Char) :
    removeBlanks (bracketReferences text) = bracketReferences (removeBlanks text) ↔
      ¬ SplitsBrackets text := by
  fun_induction bracketReferences text with
  | case1 rest ih =>
    have hopens : ¬ OpensSplit ('[' :: ']' :: '&' :: rest) :=
      fun hopens => (opensSplit_iff.1 hopens).2 rest rfl
    rw [removeBlanks_reference, removeBlanks_reference, bracketReferences,
      splitsBrackets_cons_iff, splitsBrackets_cons_iff, splitsBrackets_cons_iff]
    simp [hopens, not_opensSplit_cons, ih]
  | case2 rest ih =>
    rw [removeBlanks_reference, removeBlanks_cons_of_not_isBlank (by decide), bracketReferences,
      splitsBrackets_cons_iff]
    simp [not_opensSplit_cons, ih]
  | case3 c rest hopen hplain ih =>
    rw [splitsBrackets_cons_iff]
    by_cases hblank : isBlank c = true
    · have hc : c ≠ '[' := by
        rintro rfl
        exact absurd hblank (by decide)
      rw [removeBlanks_cons_of_isBlank hblank, removeBlanks_cons_of_isBlank hblank, ih]
      simp [not_opensSplit_cons hc]
    · rw [Bool.not_eq_true] at hblank
      rw [removeBlanks_cons_of_not_isBlank hblank, removeBlanks_cons_of_not_isBlank hblank]
      by_cases hsplit : OpensSplit (c :: rest)
      · obtain rfl : c = '[' := by
          by_contra hc
          exact not_opensSplit_cons hc rest hsplit
        obtain ⟨⟨tail, htail⟩, -⟩ := opensSplit_iff.1 hsplit
        rw [htail, bracketReferences]
        simp only [hsplit, true_or, not_true_eq_false, iff_false, List.cons.injEq, true_and]
        exact removeBlanks_bracketReferences_ne rest _
      · have hrest : c = '[' → ∀ tail, removeBlanks rest ≠ ']' :: '&' :: tail := by
          rintro rfl tail htail
          exact hsplit (opensSplit_iff.2 ⟨⟨tail, htail⟩, fun tail hrest => hopen tail rfl hrest⟩)
        rw [bracketReferences_cons hplain hrest, List.cons.injEq, ih]
        simp [hsplit]
  | case4 => simp [removeBlanks, bracketReferences, not_splitsBrackets_nil]

/-! ### Spellings -/

theorem not_splitsBrackets_removeBlanks (text : List Char) : ¬ SplitsBrackets (removeBlanks text) := by
  rintro ⟨_, htail, inner, outer, after, rfl, hblanks, hsplit⟩
  obtain ⟨c, hc⟩ := List.exists_mem_of_ne_nil _ hsplit
  have hmem : c ∈ '[' :: inner ++ ']' :: outer ++ '&' :: after := by
    rcases List.mem_append.1 hc with hinner | houter <;> simp [*]
  have hkept := isBlank_of_mem_removeBlanks (htail.subset hmem)
  rw [hblanks c hc] at hkept
  cases hkept

theorem canonicalChars_removeBlanks_iff {text : List Char} (htext : dropReturnType text = text) :
    canonicalChars text = canonicalChars (removeBlanks text) ↔
      ¬ NamesArrayAccessor (removeBlanks text) ∨ ¬ SplitsBrackets text := by
  have hplain : dropReturnType (removeBlanks text) = removeBlanks text :=
    dropReturnType_eq_self fun _ => isBlank_of_mem_removeBlanks
  rw [← isArrayAccessor_iff, canonicalChars, canonicalChars, htext, hplain, markArrayReferences,
    markArrayReferences, isArrayAccessor_removeBlanks]
  split
  · next haccessor =>
    have hkept : removeBlanks (bracketReferences (removeBlanks text)) =
        bracketReferences (removeBlanks text) := by
      rw [(removeBlanks_bracketReferences_iff _).2 (not_splitsBrackets_removeBlanks text),
        removeBlanks_removeBlanks]
    rw [hkept, removeBlanks_bracketReferences_iff]
    simp [haccessor]
  · next hother =>
    rw [removeBlanks_removeBlanks]
    simp [hother]

/-- A name without a return type has the canonical name that it has without blanks, unless it is an array
accessor in which blanks split brackets. By this alone it is told apart from any other spelling that
differs in blanks and splits none. -/
theorem canonical_withoutBlanks_iff {name : String} (hname : withoutReturnType name = name) :
    (canonical name = canonical (withoutBlanks name) ↔
        ¬ NamesArrayAccessor (withoutBlanks name).toList ∨ ¬ SplitsBrackets name.toList) ∧
      ∀ other, withoutReturnType other = other → withoutBlanks other = withoutBlanks name →
        ¬ SplitsBrackets other.toList →
          (canonical name = canonical other ↔
            ¬ NamesArrayAccessor (withoutBlanks name).toList ∨ ¬ SplitsBrackets name.toList) := by
  have hspelling : ∀ other, withoutReturnType other = other →
      (canonical other = canonical (withoutBlanks other) ↔
        ¬ NamesArrayAccessor (withoutBlanks other).toList ∨ ¬ SplitsBrackets other.toList) := by
    intro other hother
    have hkept : dropReturnType other.toList = other.toList := by
      rw [← String.toList_ofList (l := dropReturnType other.toList)]
      exact congrArg String.toList hother
    simp only [canonical, withoutBlanks, String.toList_ofList, String.ofList_inj]
    exact canonicalChars_removeBlanks_iff hkept
  refine ⟨hspelling name hname, fun other hother hblanks hwhole => ?_⟩
  rw [(hspelling other hother).2 (.inr hwhole), hblanks]
  exact hspelling name hname

/-- With brackets split and with brackets whole, one array accessor has two canonical names. -/
theorem canonical_withoutBlanks_split :
    withoutReturnType "Bag::TryGetArray(Item[ ] &)" = "Bag::TryGetArray(Item[ ] &)" ∧
      NamesArrayAccessor (withoutBlanks "Bag::TryGetArray(Item[ ] &)").toList ∧
      SplitsBrackets "Bag::TryGetArray(Item[ ] &)".toList ∧
      canonical "Bag::TryGetArray(Item[ ] &)" ≠
        canonical (withoutBlanks "Bag::TryGetArray(Item[ ] &)") := by
  have hname : withoutReturnType "Bag::TryGetArray(Item[ ] &)" = "Bag::TryGetArray(Item[ ] &)" := by
    decide +kernel
  have haccessor : NamesArrayAccessor (withoutBlanks "Bag::TryGetArray(Item[ ] &)").toList :=
    ⟨"Bag::".toList, [], "(Item[]&)".toList, by decide +kernel⟩
  have hspace : isBlank ' ' = true := by decide
  have hsplit : SplitsBrackets "Bag::TryGetArray(Item[ ] &)".toList :=
    ⟨"[ ] &)".toList, ⟨"Bag::TryGetArray(Item".toList, by decide +kernel⟩, [' '], [' '], [')'],
      by decide +kernel, by simp [hspace], by decide⟩
  refine ⟨hname, haccessor, hsplit, fun hsame => ?_⟩
  rcases (canonical_withoutBlanks_iff hname).1.1 hsame with hother | hwhole
  · exact hother haccessor
  · exact hwhole hsplit

end CallGraph.Name
