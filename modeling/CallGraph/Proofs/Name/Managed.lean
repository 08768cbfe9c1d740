import CallGraph.Name.Generic
import CallGraph.Name.Managed
import CallGraph.Proofs.Text.Replacing

/-!
# The passes over names from metadata

Each pass is taken apart at what it looks for, so that a name can be spelled anew piece by piece. Where a name has no
constructor and no `TEnum`, only its separators and arity marks are respelled; and of the brackets that a compiler
writes, those of an iterator and those of a closure each go in passes of their own.
-/

namespace CallGraph.Name

open CallGraph.Text

/-! ### Separators and arity marks -/

/-- The characters by which metadata separates and marks the parts of a path. -/
def isMarker (c : Char) : Bool :=
  c == '\x60' || c == '.' || c == '/'

/-- What the metadata spelling of a name is brought to when it has no constructor and no `TEnum`. -/
def plainChars (text : List Char) : List Char :=
  replaceAll ['/'] "::".toList (replaceAll ['.'] "::".toList (dropArityMarks false text))

theorem pathChars_eq_plainChars {text : List Char} (hconstructor : ¬ ['<', '.'] <:+: text)
    (henum : ¬ "TEnum".toList <:+: text) : pathChars text = plainChars text := by
  have hopening (name : List Char) : ¬ ['<', '.'] ++ name <:+: text := fun h =>
    hconstructor ((List.prefix_append ['<', '.'] name).isInfix.trans h)
  have hstatic : ¬ "<.cctor>".toList <:+: text := hopening "cctor>".toList
  have hinstance : ¬ "<.ctor>".toList <:+: text := hopening "ctor>".toList
  simp only [pathChars]
  rw [replaceAll_eq_self hstatic, replaceAll_eq_self hinstance, replaceAll_eq_self henum]
  rfl

theorem dropArityMarks_append {word : List Char} (h : '\x60' ∉ word) (rest : List Char) :
    dropArityMarks false (word ++ rest) = word ++ dropArityMarks false rest := by
  induction word with
  | nil => rfl
  | cons c word ih =>
    obtain ⟨hne, hword⟩ := not_or.1 (mt List.mem_cons.2 h)
    rw [List.cons_append, dropArityMarks, if_neg (Ne.symm hne), Bool.false_and,
      if_neg Bool.false_ne_true, ih hword, List.cons_append]

theorem dropArityMarks_digits {digits : List Char} (h : ∀ c ∈ digits, c.isDigit = true)
    (rest : List Char) : dropArityMarks true (digits ++ rest) = dropArityMarks true rest := by
  induction digits with
  | nil => rfl
  | cons c digits ih =>
    obtain ⟨hc, hdigits⟩ := List.forall_mem_cons.1 h
    rw [List.cons_append, dropArityMarks]
    split
    · exact ih hdigits
    · rw [hc, Bool.true_and, if_pos rfl, ih hdigits]

theorem plainChars_append {word : List Char} (h : ∀ c ∈ word, isMarker c = false)
    (rest : List Char) : plainChars (word ++ rest) = word ++ plainChars rest := by
  have hnot {c : Char} (hc : isMarker c = true) : c ∉ word := by
    intro hmem
    rw [h c hmem] at hc
    exact Bool.false_ne_true hc
  simp only [plainChars]
  rw [dropArityMarks_append (hnot (by decide)), replaceAll_append_of_not_mem (hnot (by decide)),
    replaceAll_append_of_not_mem (hnot (by decide))]

theorem plainChars_literal (literal : String)
    (h : literal.toList.all (fun c => !isMarker c) = true) (rest : List Char) :
    plainChars (literal.toList ++ rest) = literal.toList ++ plainChars rest :=
  plainChars_append (fun c hc => by simpa using List.all_eq_true.1 h c hc) rest

/-! ### Brackets -/

def AngleFree (text : List Char) : Prop :=
  ∀ c ∈ text, isAngle c = false

instance : DecidablePred AngleFree :=
  List.decidableBAll fun c => isAngle c = false

namespace AngleFree

variable {text : List Char}

theorem not_mem (h : AngleFree text) {c : Char} (hc : isAngle c = true) : c ∉ text := by
  intro hmem
  rw [h c hmem] at hc
  exact Bool.false_ne_true hc

theorem append (h : AngleFree text) {rest : List Char} (hrest : AngleFree rest) :
    AngleFree (text ++ rest) :=
  List.forall_mem_append.2 ⟨h, hrest⟩

theorem replaceAll {pattern replacement : List Char} (h : AngleFree text)
    (hpattern : pattern ≠ []) (hreplacement : AngleFree replacement) :
    AngleFree (Text.replaceAll pattern replacement text) := fun c hc =>
  (mem_of_mem_replaceAll hpattern hc).elim (hreplacement c) (h c)

end AngleFree

theorem foldIterator_eq_self {text : List Char} (h : ¬ ">d".toList <:+: text) :
    foldIterator text = text := by
  have hmissing : cut? ">d".toList text = none := by
    rw [← Option.isNone_iff_eq_none, ← Option.not_isSome, isSome_cut?, Bool.not_eq_true']
    exact eq_false_of_ne_true fun hoccurs => h (occursIn_iff.1 hoccurs)
  rw [foldIterator, hmissing]

theorem foldIterator_append {head machine : List Char} (hhead : '>' ∉ head)
    (hmachine : ':' ∉ machine) (member : List Char) :
    foldIterator (head ++ (">d".toList ++ (machine ++ ("::".toList ++ member)))) =
      head ++ ("_d".toList ++ (machine ++ ("::".toList ++ replaceAll "::".toList ['_'] member))) := by
  have hmarker : IsFirstCut ">d".toList _ head (machine ++ ("::".toList ++ member)) :=
    .of_mem (by decide) hhead _
  have hseparator : IsFirstCut "::".toList _ machine member := .of_mem (by decide) hmachine _
  simp only [foldIterator, cut?_eq_some_iff.2 hmarker, cut?_eq_some_iff.2 hseparator,
    List.append_assoc]

variable {front method number member rest : List Char}

/-- The brackets of a method are not empty ones. -/
theorem not_empty_brackets_infix (hfront : AngleFree front) (hmethod : AngleFree method)
    (hne : method ≠ []) (hrest : '<' ∉ rest) :
    ¬ "<>".toList <:+: front ++ '<' :: (method ++ rest) :=
  not_pair_infix (hfront.not_mem (by decide)) hne (hmethod.not_mem (by decide))
    (hmethod.not_mem (by decide)) (not_infix_of_not_mem List.mem_cons_self hrest)

/-- The class of an iterator loses its brackets, and its member the separators. -/
theorem generatedChars_iterator (hfront : AngleFree front) (hmethod : AngleFree method)
    (hne : method ≠ []) (hnumber : AngleFree number) (hcolon : ':' ∉ number)
    (hmember : AngleFree member) :
    generatedChars (front ++ ("::<".toList ++ (method ++ (">d__".toList ++ (number ++
        ("::".toList ++ member)))))) =
      front ++ ("::_".toList ++ (method ++ ("_d__".toList ++ (number ++
        ("::".toList ++ replaceAll "::".toList ['_'] member))))) := by
  obtain ⟨tail, htail⟩ : ∃ tail, tail = method ++ ("_d__".toList ++ (number ++
      ("::".toList ++ replaceAll "::".toList ['_'] member))) := ⟨_, rfl⟩
  have hempty : ¬ "<>".toList <:+: front ++ ("::<".toList ++ (method ++ (">d__".toList ++ (number ++
      ("::".toList ++ member))))) := by
    have hpath : AngleFree (front ++ "::".toList) := hfront.append (by decide)
    have hrest : AngleFree (number ++ ("::".toList ++ member)) :=
      hnumber.append (.append (by decide) hmember)
    have hbehind : '<' ∉ ">d__".toList ++ (number ++ ("::".toList ++ member)) :=
      List.not_mem_append (by decide) (hrest.not_mem (by decide))
    have h := not_empty_brackets_infix hpath hmethod hne hbehind
    rwa [List.append_assoc] at h
  have hfolded : foldIterator (front ++ ("::<".toList ++ (method ++ (">d__".toList ++ (number ++
      ("::".toList ++ member)))))) = front ++ ("::<".toList ++ tail) := by
    have hhead : '>' ∉ front ++ ("::<".toList ++ method) :=
      List.not_mem_append (hfront.not_mem (by decide))
        (List.not_mem_append (by decide) (hmethod.not_mem (by decide)))
    have hmachine : ':' ∉ "__".toList ++ number := List.not_mem_append (by decide) hcolon
    have h := foldIterator_append hhead hmachine member
    simpa [htail] using h
  have hangles : AngleFree tail := by
    rw [htail]
    exact hmethod.append (.append (by decide) (hnumber.append
      (.append (by decide) (hmember.replaceAll (by decide) (by decide)))))
  -- No closing bracket is left, and one opening bracket, which is that of the method.
  have hclosed : '>' ∉ front ++ ("::<".toList ++ tail) :=
    List.not_mem_append (hfront.not_mem (by decide))
      (List.not_mem_append (by decide) (hangles.not_mem (by decide)))
  have hiterators : ¬ ">d__".toList <:+: _ := not_infix_of_not_mem (by decide) hclosed
  have hclosures : ¬ ">b__".toList <:+: _ := not_infix_of_not_mem (by decide) hclosed
  have hopening : '<' ∈ "::<".toList := by decide
  rw [← htail, generatedChars, replaceAll_eq_self hempty, hfolded, replaceAll_eq_self hiterators,
    replaceAll_eq_self hclosures,
    replaceAll_once hopening (hfront.not_mem (by decide)) (hangles.not_mem (by decide))]

/-- A closure and the class that it is kept in lose their brackets. -/
theorem generatedChars_closure (hfront : AngleFree front) (hmethod : AngleFree method)
    (hne : method ≠ []) (hrest : AngleFree rest) :
    generatedChars (front ++ ("<>".toList ++ ("c::<".toList ++ (method ++
        (">b__".toList ++ rest))))) =
      front ++ ("__c".toList ++ ("::_".toList ++ (method ++ ("_b__".toList ++ rest)))) := by
  have hclass : replaceAll "<>".toList "__".toList (front ++ ("<>".toList ++ ("c::<".toList ++
      (method ++ (">b__".toList ++ rest))))) =
        front ++ ("__c::<".toList ++ (method ++ (">b__".toList ++ rest))) := by
    have hcut : IsFirstCut "<>".toList _ front
        ("c::<".toList ++ (method ++ (">b__".toList ++ rest))) :=
      .of_mem (by decide : '<' ∈ "<>".toList) (hfront.not_mem (by decide)) _
    have hpath : AngleFree "c::".toList := by decide
    have hbehind : '<' ∉ ">b__".toList ++ rest :=
      List.not_mem_append (by decide) (hrest.not_mem (by decide))
    have hempty : ¬ "<>".toList <:+: "c::<".toList ++ (method ++ (">b__".toList ++ rest)) := by
      have h := not_empty_brackets_infix hpath hmethod hne hbehind
      exact h
    rw [replaceAll_of_isFirstCut (by decide) hcut, replaceAll_eq_self hempty, List.append_assoc]
    rfl
  have hopened : '>' ∉ front ++ ("__c::<".toList ++ method) :=
    List.not_mem_append (hfront.not_mem (by decide))
      (List.not_mem_append (by decide) (hmethod.not_mem (by decide)))
  have hmarker : ¬ ">d".toList <:+: front ++ ("__c::<".toList ++ (method ++
      (">b__".toList ++ rest))) := by
    have hbetween : "b__".toList ≠ [] := by decide
    have hletter : 'd' ∉ "b__".toList := by decide
    have hbehind : ¬ ['>', 'd'] <:+: rest :=
      not_infix_of_not_mem List.mem_cons_self (hrest.not_mem (by decide))
    have h := not_pair_infix hopened hbetween (by decide) hletter hbehind
    simpa using h
  have hiterators : ¬ ">d__".toList <:+: front ++ ("__c::<".toList ++ (method ++
      (">b__".toList ++ rest))) := fun h =>
    hmarker ((List.prefix_append ">d".toList "__".toList).isInfix.trans h)
  have hclosures : replaceAll ">b__".toList "_b__".toList (front ++ ("__c::<".toList ++ (method ++
      (">b__".toList ++ rest)))) =
        front ++ "__c".toList ++ ("::<".toList ++ (method ++ ("_b__".toList ++ rest))) := by
    have hclosing : '>' ∈ ">b__".toList := by decide
    have h : replaceAll ">b__".toList "_b__".toList _ = _ :=
      replaceAll_once hclosing hopened (hrest.not_mem (by decide))
    simpa using h
  have hhead : AngleFree (front ++ "__c".toList) := hfront.append (by decide)
  have htail : AngleFree (method ++ ("_b__".toList ++ rest)) :=
    hmethod.append (.append (by decide) hrest)
  have hopening : '<' ∈ "::<".toList := by decide
  rw [generatedChars, hclass, foldIterator_eq_self hmarker, replaceAll_eq_self hiterators, hclosures,
    replaceAll_once hopening (hhead.not_mem (by decide)) (htail.not_mem (by decide)),
    List.append_assoc]

end CallGraph.Name
