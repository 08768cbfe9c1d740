import CallGraph.Proofs.Document.Finding
import CallGraph.Proofs.Name.Idempotence
import CallGraph.Proofs.Name.Managed

/-!
# Compiler-generated names

A compiler makes a class of an iterator and keeps lambdas in a class for closures, and metadata writes the names of
both with angle brackets. Such a name is given here by its parts. Its metadata spelling is brought to the name in the
graph by passes over the text, each of which could make or spoil what a later one looks for; on such a name none does,
so that what it is called in the graph can be read off its parts.
-/

namespace CallGraph.Name

open CallGraph.Text

/-- The characters of identifiers: letters, digits, `_` and whatever else no pass looks for. -/
def isIdentifierChar (c : Char) : Bool :=
  !isBlank c && !isAngle c && !isMarker c && c != ':' && c != '&'

structure Identifier where
  chars : List Char
  ne_nil : chars ≠ []
  isIdentifier : chars.all isIdentifierChar = true
  noEnum : occursIn "TEnum".toList chars = false

structure Digits where
  chars : List Char
  ne_nil : chars ≠ []
  isDigit : chars.all Char.isDigit = true

inductive Separator
  | dot
  | slash
  | colons

def Separator.chars : Separator → List Char
  | .dot => ['.']
  | .slash => ['/']
  | .colons => "::".toList

/-- The arity mark of a generic type. -/
def arityMark : Option Digits → List Char
  | none => []
  | some arity => '\x60' :: arity.chars

/-- A part of a path, with what separates it from the next one. -/
structure PathPart where
  name : Identifier
  arity : Option Digits
  separator : Separator

/-- What stands behind the name of a part in metadata. -/
def PathPart.gap (part : PathPart) : List Char :=
  arityMark part.arity ++ part.separator.chars

def PathPart.chars (part : PathPart) : List Char :=
  part.name.chars ++ part.gap

/-- The names of the parts, with one and the same separator behind each. -/
def joined (separator : List Char) (parts : List PathPart) : List Char :=
  parts.flatMap fun part => part.name.chars ++ separator

/-- A member of a class that a compiler makes for a method: one that an iterator has, maybe for an interface, or a
closure. -/
inductive GeneratedMember
  | iterator (method : Identifier) (number : Digits) (separator : Separator)
    (interface : List PathPart) (name : Identifier)
  | closure (separator : Separator) (method : Identifier) (number index : Digits)

namespace GeneratedMember

def inMetadata : GeneratedMember → List Char
  | iterator method number separator interface name =>
    ["<".toList, method.chars, ">d__".toList, number.chars, separator.chars,
      interface.flatMap PathPart.chars, name.chars, "(void)".toList].flatten
  | closure separator method number index =>
    ["<>c".toList, separator.chars, "<".toList, method.chars, ">b__".toList, number.chars,
      "_".toList, index.chars, "(void)".toList].flatten

def inGraph : GeneratedMember → List Char
  | iterator method number _ interface name =>
    ["_".toList, method.chars, "_d__".toList, number.chars, "::".toList,
      joined "_".toList interface, name.chars, "(void)".toList].flatten
  | closure _ method number index =>
    ["__c".toList, "::_".toList, method.chars, "_b__".toList, number.chars, "_".toList, index.chars,
      "(void)".toList].flatten

end GeneratedMember

/-- A compiler-generated member, with the path of the type that its class is made in. -/
structure GeneratedName where
  path : List PathPart
  ne_nil : path ≠ []
  member : GeneratedMember

namespace GeneratedName

def inMetadata (name : GeneratedName) : String :=
  String.ofList (name.path.flatMap PathPart.chars ++ name.member.inMetadata)

def inGraph (name : GeneratedName) : String :=
  String.ofList (joined "::".toList name.path ++ name.member.inGraph)

end GeneratedName

/-! ### Characters -/

theorem isIdentifierChar_of_isAlphanum {c : Char} (h : c.isAlphanum = true ∨ c = '_') :
    isIdentifierChar c = true := by
  rcases h with h | rfl
  · change (decide (c.val ≥ 'A'.val ∧ c.val ≤ 'Z'.val) || (c.val ≥ 'a'.val && c.val ≤ 'z'.val) ||
      (c.val ≥ '0'.val && c.val ≤ '9'.val)) = true at h
    simp only [Bool.or_eq_true, Bool.and_eq_true, decide_eq_true_eq, ge_iff_le,
      UInt32.le_iff_toNat_le] at h
    change ((65 ≤ c.toNat ∧ c.toNat ≤ 90) ∨ (97 ≤ c.toNat ∧ c.toNat ≤ 122)) ∨
      (48 ≤ c.toNat ∧ c.toNat ≤ 57) at h
    simp only [isIdentifierChar, isBlank, isAngle, isMarker, Bool.and_eq_true, Bool.not_eq_true',
      Bool.or_eq_false_iff, Bool.and_eq_false_iff, decide_eq_false_iff_not, beq_eq_false_iff_ne,
      bne_iff_ne, ne_eq, ← Char.toNat_inj, Char.reduceToNat]
    omega
  · decide

/-- The characters of a path in metadata. -/
def isPathChar (c : Char) : Bool :=
  isIdentifierChar c || isMarker c || c == ':'

theorem isAngle_of_isPathChar {c : Char} (h : isPathChar c = true) : isAngle c = false := by
  simp only [isPathChar, Bool.or_eq_true, beq_iff_eq] at h
  rcases h with (hidentifier | hmarker) | rfl
  · simp only [isIdentifierChar, Bool.and_eq_true, Bool.not_eq_true'] at hidentifier
    exact hidentifier.1.1.1.2
  · simp only [isMarker, Bool.or_eq_true, beq_iff_eq] at hmarker
    rcases hmarker with (rfl | rfl) | rfl <;> decide
  · decide

/-- The characters that canonical names of any kind may have. -/
def isPlainChar (c : Char) : Bool :=
  !isBlank c && c != '&'

theorem isPlainChar_of_isPathChar {c : Char} (h : isPathChar c = true) : isPlainChar c = true := by
  simp only [isPathChar, Bool.or_eq_true, beq_iff_eq] at h
  rcases h with (hidentifier | hmarker) | rfl
  · simp only [isIdentifierChar, Bool.and_eq_true] at hidentifier
    simp [isPlainChar, hidentifier]
  · simp only [isMarker, Bool.or_eq_true, beq_iff_eq] at hmarker
    rcases hmarker with (rfl | rfl) | rfl <;> decide
  · decide

def IsPath (text : List Char) : Prop :=
  ∀ c ∈ text, isPathChar c = true

instance : DecidablePred IsPath :=
  List.decidableBAll fun c => isPathChar c = true

namespace IsPath

variable {text : List Char}

theorem append (h : IsPath text) {rest : List Char} (hrest : IsPath rest) : IsPath (text ++ rest) :=
  List.forall_mem_append.2 ⟨h, hrest⟩

theorem angleFree (h : IsPath text) : AngleFree text := fun c hc =>
  isAngle_of_isPathChar (h c hc)

theorem all_isPlainChar (h : IsPath text) : text.all isPlainChar = true :=
  List.all_eq_true.2 fun c hc => isPlainChar_of_isPathChar (h c hc)

end IsPath

def IsWord (text : List Char) : Prop :=
  ∀ c ∈ text, isIdentifierChar c = true

namespace IsWord

variable {text : List Char}

theorem not_mem (h : IsWord text) {c : Char} (hc : isIdentifierChar c = false) : c ∉ text := by
  intro hmem
  rw [h c hmem] at hc
  exact Bool.noConfusion hc

theorem isPath (h : IsWord text) : IsPath text := fun c hc => by
  simp [isPathChar, h c hc]

theorem plainChars_append (h : IsWord text) (rest : List Char) :
    plainChars (text ++ rest) = text ++ plainChars rest := by
  refine Name.plainChars_append (fun c hc => ?_) rest
  have hidentifier := h c hc
  simp only [isIdentifierChar, Bool.and_eq_true, Bool.not_eq_true'] at hidentifier
  exact hidentifier.1.1.2

end IsWord

/-- A text that no occurrence of `TEnum` reaches into. -/
def EnumApart (text : List Char) : Prop :=
  ∀ c ∈ text, c ∉ "TEnum".toList

instance : DecidablePred EnumApart :=
  List.decidableBAll fun c => c ∉ "TEnum".toList

theorem EnumApart.append {text rest : List Char} (h : EnumApart text) (hrest : EnumApart rest) :
    EnumApart (text ++ rest) :=
  List.forall_mem_append.2 ⟨h, hrest⟩

theorem not_enum_infix_nil : ¬ "TEnum".toList <:+: [] := by
  decide

theorem not_enum_infix_append {text rest : List Char} (h : EnumApart text)
    (hrest : ¬ "TEnum".toList <:+: rest) : ¬ "TEnum".toList <:+: text ++ rest := by
  have hletter : 'T' ∉ text := fun hmem => h 'T' hmem (by decide)
  exact (cons_infix_append_iff hletter rest).not.2 hrest

/-! ### Identifiers, numbers and paths -/

namespace Identifier

/-- A word of letters, digits and `_`. -/
def ofWord (word : String) (hne : word.toList ≠ [])
    (hword : word.toList.all (fun c => c.isAlphanum || c == '_') = true)
    (henum : occursIn "TEnum".toList word.toList = false) : Identifier where
  chars := word.toList
  ne_nil := hne
  isIdentifier := List.all_eq_true.2 fun c hc =>
    isIdentifierChar_of_isAlphanum (by simpa using List.all_eq_true.1 hword c hc)
  noEnum := henum

variable (identifier : Identifier)

theorem isWord : IsWord identifier.chars :=
  List.all_eq_true.1 identifier.isIdentifier

/-- An occurrence of `TEnum` would lie within the identifier or behind what ends it. -/
theorem not_enum_infix_append {boundary : List Char} (hne : boundary ≠ [])
    (hboundary : EnumApart boundary) {rest : List Char} (hrest : ¬ "TEnum".toList <:+: rest) :
    ¬ "TEnum".toList <:+: identifier.chars ++ (boundary ++ rest) := by
  rw [infix_append_append_iff (by decide) hne hboundary, ← occursIn_iff, identifier.noEnum, not_or]
  exact ⟨Bool.false_ne_true, hrest⟩

end Identifier

namespace Digits

variable (digits : Digits)

theorem isDigit_of_mem {c : Char} (h : c ∈ digits.chars) : c.isDigit = true :=
  List.all_eq_true.1 digits.isDigit c h

theorem isWord : IsWord digits.chars := fun _ hc =>
  isIdentifierChar_of_isAlphanum (.inl (Bool.or_eq_true_iff.2 (.inr (digits.isDigit_of_mem hc))))

theorem enumApart : EnumApart digits.chars := by
  have hletters : "TEnum".toList.all (fun c => !c.isDigit) = true := by decide
  intro c hc henum
  have hletter := List.all_eq_true.1 hletters c henum
  rw [digits.isDigit_of_mem hc] at hletter
  exact absurd hletter (by decide)

end Digits

namespace Separator

variable (separator : Separator)

theorem isPath : IsPath separator.chars := by
  cases separator <;> decide

theorem enumApart : EnumApart separator.chars := by
  cases separator <;> decide

/-- A separator ends an arity mark. -/
theorem dropArityMarks_append (inMark : Bool) (rest : List Char) :
    dropArityMarks inMark (separator.chars ++ rest) =
      separator.chars ++ dropArityMarks false rest := by
  cases separator <;> simp [chars, dropArityMarks]

end Separator

theorem plainChars_gap (arity : Option Digits) (separator : Separator) (rest : List Char) :
    plainChars (arityMark arity ++ separator.chars ++ rest) = "::".toList ++ plainChars rest := by
  have hmark : dropArityMarks false (arityMark arity ++ separator.chars ++ rest) =
      separator.chars ++ dropArityMarks false rest := by
    rw [List.append_assoc]
    cases arity with
    | none => exact separator.dropArityMarks_append false rest
    | some digits =>
      rw [arityMark, List.cons_append, dropArityMarks, if_pos rfl,
        dropArityMarks_digits fun _ => digits.isDigit_of_mem, separator.dropArityMarks_append]
  simp only [plainChars]
  rw [hmark]
  cases separator with
  | dot =>
    rw [Separator.chars, replaceAll_append (by decide), replaceAll_append_of_not_mem (by decide)]
  | slash =>
    rw [Separator.chars, replaceAll_append_of_not_mem (by decide), replaceAll_append (by decide)]
  | colons =>
    rw [Separator.chars, replaceAll_append_of_not_mem (by decide),
      replaceAll_append_of_not_mem (by decide)]

theorem Separator.plainChars_append (separator : Separator) (rest : List Char) :
    plainChars (separator.chars ++ rest) = "::".toList ++ plainChars rest :=
  plainChars_gap none separator rest

namespace PathPart

variable (part : PathPart)

theorem isPath : IsPath part.chars := by
  have hmark : IsPath (arityMark part.arity) := by
    cases part.arity with
    | none => exact (by decide : IsPath [])
    | some digits => exact (by decide : IsPath ['\x60']).append digits.isWord.isPath
  exact part.name.isWord.isPath.append (hmark.append part.separator.isPath)

theorem enumApart_gap : EnumApart part.gap := by
  have hmark : EnumApart (arityMark part.arity) := by
    cases part.arity with
    | none => exact (by decide : EnumApart [])
    | some digits => exact (by decide : EnumApart ['\x60']).append digits.enumApart
  exact hmark.append part.separator.enumApart

theorem gap_ne_nil : part.gap ≠ [] := by
  have hseparator : part.separator.chars ≠ [] := by
    cases part.separator <;> decide
  exact List.append_ne_nil_of_right_ne_nil _ hseparator

end PathPart

variable (parts : List PathPart)

theorem isPath_parts : IsPath (parts.flatMap PathPart.chars) := by
  intro c hc
  obtain ⟨part, -, hmem⟩ := List.mem_flatMap.1 hc
  exact part.isPath c hmem

theorem isPath_joined {separator : List Char} (h : IsPath separator) :
    IsPath (joined separator parts) := by
  intro c hc
  obtain ⟨part, -, hmem⟩ := List.mem_flatMap.1 hc
  exact part.name.isWord.isPath.append h c hmem

/-- The last separator of a path stands at its end. -/
theorem exists_joined_eq_append (hparts : parts ≠ []) {separator : List Char}
    (hseparator : IsPath separator) :
    ∃ front, AngleFree front ∧ joined separator parts = front ++ separator := by
  have hlast : joined separator parts =
      joined separator parts.dropLast ++ (parts.getLast hparts).name.chars ++ separator := by
    conv_lhs => rw [← List.dropLast_append_getLast hparts]
    simp [joined]
  have hfront :=
    (isPath_joined parts.dropLast hseparator).append (parts.getLast hparts).name.isWord.isPath
  exact ⟨_, hfront.angleFree, hlast⟩

theorem not_enum_infix_parts {rest : List Char} (hrest : ¬ "TEnum".toList <:+: rest) :
    ¬ "TEnum".toList <:+: parts.flatMap PathPart.chars ++ rest := by
  induction parts with
  | nil => exact hrest
  | cons part parts ih =>
    rw [List.flatMap_cons, PathPart.chars, List.append_assoc, List.append_assoc]
    exact part.name.not_enum_infix_append part.gap_ne_nil part.enumApart_gap ih

theorem plainChars_parts (rest : List Char) :
    plainChars (parts.flatMap PathPart.chars ++ rest) =
      joined "::".toList parts ++ plainChars rest := by
  induction parts with
  | nil => rfl
  | cons part parts ih =>
    rw [List.flatMap_cons, PathPart.chars, PathPart.gap, List.append_assoc, List.append_assoc,
      part.name.isWord.plainChars_append, plainChars_gap, ih]
    simp [joined]

theorem replaceAll_joined {word : List Char} (hword : ':' ∉ word) :
    replaceAll "::".toList ['_'] (joined "::".toList parts ++ word) =
      joined "_".toList parts ++ word := by
  induction parts with
  | nil => exact replaceAll_eq_self (not_infix_of_not_mem (by decide) hword)
  | cons part parts ih =>
    have hname : ':' ∉ part.name.chars := part.name.isWord.not_mem (by decide)
    have hcolons : "::".toList ≠ [] := by decide
    calc replaceAll "::".toList ['_'] (joined "::".toList (part :: parts) ++ word)
        = replaceAll "::".toList ['_']
            (part.name.chars ++ ("::".toList ++ (joined "::".toList parts ++ word))) := by
          simp [joined]
      _ = part.name.chars ++ replaceAll "::".toList ['_']
            ("::".toList ++ (joined "::".toList parts ++ word)) :=
          replaceAll_append_of_not_mem hname _
      _ = part.name.chars ++ (['_'] ++ (joined "_".toList parts ++ word)) := by
          rw [replaceAll_append hcolons, ih]
      _ = joined "_".toList (part :: parts) ++ word := by simp [joined]

/-! ### Members -/

namespace GeneratedMember

theorem plainChars_iterator (method : Identifier) (number : Digits) (separator : Separator)
    (interface : List PathPart) (name : Identifier) :
    plainChars (iterator method number separator interface name).inMetadata =
      "<".toList ++ (method.chars ++ (">d__".toList ++ (number.chars ++ ("::".toList ++
        (joined "::".toList interface ++ (name.chars ++ "(void)".toList)))))) := by
  have hvoid : plainChars "(void)".toList = "(void)".toList := rfl
  simp only [inMetadata, List.flatten_cons, List.flatten_nil, List.append_nil]
  rw [plainChars_literal "<" (by decide), method.isWord.plainChars_append,
    plainChars_literal ">d__" (by decide), number.isWord.plainChars_append,
    separator.plainChars_append, plainChars_parts, name.isWord.plainChars_append, hvoid]

theorem plainChars_closure (separator : Separator) (method : Identifier) (number index : Digits) :
    plainChars (closure separator method number index).inMetadata =
      "<>c".toList ++ ("::".toList ++ ("<".toList ++ (method.chars ++ (">b__".toList ++
        (number.chars ++ ("_".toList ++ (index.chars ++ "(void)".toList))))))) := by
  have hvoid : plainChars "(void)".toList = "(void)".toList := rfl
  simp only [inMetadata, List.flatten_cons, List.flatten_nil, List.append_nil]
  rw [plainChars_literal "<>c" (by decide), separator.plainChars_append,
    plainChars_literal "<" (by decide), method.isWord.plainChars_append,
    plainChars_literal ">b__" (by decide), number.isWord.plainChars_append,
    plainChars_literal "_" (by decide), index.isWord.plainChars_append, hvoid]

theorem generatedChars_plainChars (member : GeneratedMember) {front : List Char}
    (hfront : AngleFree front) :
    generatedChars (front ++ "::".toList ++ plainChars member.inMetadata) =
      front ++ "::".toList ++ member.inGraph := by
  cases member with
  | iterator method number separator interface name =>
    have hname : ':' ∉ name.chars ++ "(void)".toList :=
      List.not_mem_append (name.isWord.not_mem (by decide)) (by decide)
    have hmember : IsPath (joined "::".toList interface ++ (name.chars ++ "(void)".toList)) :=
      (isPath_joined interface (by decide)).append (name.isWord.isPath.append (by decide))
    have h := generatedChars_iterator hfront method.isWord.isPath.angleFree method.ne_nil
      number.isWord.isPath.angleFree (number.isWord.not_mem (by decide)) hmember.angleFree
    rw [replaceAll_joined interface hname] at h
    simp only [plainChars_iterator, inGraph, List.flatten_cons, List.flatten_nil, List.append_nil,
      List.append_assoc]
    exact h
  | closure separator method number index =>
    have hpath : AngleFree (front ++ "::".toList) := hfront.append (by decide)
    have hrest : IsPath (number.chars ++ ("_".toList ++ (index.chars ++ "(void)".toList))) :=
      number.isWord.isPath.append (.append (by decide) (index.isWord.isPath.append (by decide)))
    have h := generatedChars_closure hpath method.isWord.isPath.angleFree method.ne_nil
      hrest.angleFree
    simp only [plainChars_closure, inGraph, List.flatten_cons, List.flatten_nil, List.append_nil,
      List.append_assoc] at h ⊢
    exact h

/-- No constructor stands in the spelling: what a bracket opens starts with an identifier, or is empty. -/
theorem not_constructor_infix (member : GeneratedMember) {path : List Char} (hpath : IsPath path) :
    ¬ ['<', '.'] <:+: path ++ member.inMetadata := by
  have hfront : '<' ∉ path := hpath.angleFree.not_mem (by decide)
  have hdot : isIdentifierChar '.' = false := by decide
  cases member with
  | iterator method number separator interface name =>
    have htail : IsPath (number.chars ++ (separator.chars ++ (interface.flatMap PathPart.chars ++
        (name.chars ++ "(void)".toList)))) :=
      number.isWord.isPath.append (separator.isPath.append ((isPath_parts interface).append
        (name.isWord.isPath.append (by decide))))
    have hback : '<' ∉ ">d__".toList ++ (number.chars ++ (separator.chars ++
        (interface.flatMap PathPart.chars ++ (name.chars ++ "(void)".toList)))) :=
      List.not_mem_append (by decide) (htail.angleFree.not_mem (by decide))
    have h := not_pair_infix hfront method.ne_nil (method.isWord.isPath.angleFree.not_mem (by decide))
      (method.isWord.not_mem hdot) (not_infix_of_not_mem List.mem_cons_self hback)
    simp only [inMetadata, List.flatten_cons, List.flatten_nil, List.append_nil]
    exact h
  | closure separator method number index =>
    have htail : IsPath (number.chars ++ ("_".toList ++ (index.chars ++ "(void)".toList))) :=
      number.isWord.isPath.append (.append (by decide) (index.isWord.isPath.append (by decide)))
    have hback : '<' ∉ ">b__".toList ++ (number.chars ++ ("_".toList ++
        (index.chars ++ "(void)".toList))) :=
      List.not_mem_append (by decide) (htail.angleFree.not_mem (by decide))
    have hmethod := not_pair_infix (separator.isPath.angleFree.not_mem (by decide)) method.ne_nil
      (method.isWord.isPath.angleFree.not_mem (by decide)) (method.isWord.not_mem hdot)
      (not_infix_of_not_mem List.mem_cons_self hback)
    have h := not_pair_infix hfront (by decide : ">c".toList ≠ []) (by decide) (by decide) hmethod
    simp only [inMetadata, List.flatten_cons, List.flatten_nil, List.append_nil]
    exact h

theorem not_enum_infix (member : GeneratedMember) : ¬ "TEnum".toList <:+: member.inMetadata := by
  have hvoid : EnumApart "(void)".toList := by decide
  cases member with
  | iterator method number separator interface name =>
    have hnumber : EnumApart (">d__".toList ++ (number.chars ++ separator.chars)) :=
      .append (by decide) (number.enumApart.append separator.enumApart)
    have hname := name.not_enum_infix_append (by decide) hvoid not_enum_infix_nil
    have hmethod := method.not_enum_infix_append (by simp) hnumber
      (not_enum_infix_parts interface hname)
    have h := not_enum_infix_append (by decide : EnumApart "<".toList) hmethod
    simpa only [inMetadata, List.flatten_cons, List.flatten_nil, List.append_assoc] using h
  | closure separator method number index =>
    have hnumbers : EnumApart (">b__".toList ++ (number.chars ++ ("_".toList ++
        (index.chars ++ "(void)".toList)))) :=
      .append (by decide) (number.enumApart.append (.append (by decide)
        (index.enumApart.append hvoid)))
    have hclass : EnumApart ("<>c".toList ++ (separator.chars ++ "<".toList)) :=
      .append (by decide) (separator.enumApart.append (by decide))
    have hmethod := method.not_enum_infix_append (by simp) hnumbers not_enum_infix_nil
    have h := not_enum_infix_append hclass hmethod
    simpa only [inMetadata, List.flatten_cons, List.flatten_nil, List.append_assoc] using h

theorem all_isPlainChar (member : GeneratedMember) : member.inMetadata.all isPlainChar = true := by
  cases member with
  | iterator method number separator interface name =>
    simp only [inMetadata, List.flatten_cons, List.flatten_nil, List.append_nil, List.all_append,
      Bool.and_eq_true]
    exact ⟨by decide, method.isWord.isPath.all_isPlainChar, by decide,
      number.isWord.isPath.all_isPlainChar, separator.isPath.all_isPlainChar,
      (isPath_parts interface).all_isPlainChar, name.isWord.isPath.all_isPlainChar, by decide⟩
  | closure separator method number index =>
    simp only [inMetadata, List.flatten_cons, List.flatten_nil, List.append_nil, List.all_append,
      Bool.and_eq_true]
    exact ⟨by decide, separator.isPath.all_isPlainChar, by decide,
      method.isWord.isPath.all_isPlainChar, by decide, number.isWord.isPath.all_isPlainChar,
      by decide, index.isWord.isPath.all_isPlainChar, by decide⟩

end GeneratedMember

/-! ### Names -/

theorem canonicalChars_eq_self {text : List Char} (h : text.all isPlainChar = true) :
    canonicalChars text = text := by
  have hreference : '&' ∉ text := fun hmem => absurd (List.all_eq_true.1 h '&' hmem) (by decide)
  have hcanonical : IsCanonical text := by
    refine ⟨fun c hc => ?_, fun _ => bracketReferences_eq_self hreference⟩
    have hplain := List.all_eq_true.1 h c hc
    simp only [isPlainChar, Bool.and_eq_true, Bool.not_eq_true'] at hplain
    exact hplain.1
  exact hcanonical.canonicalChars_eq_self

namespace GeneratedName

variable (name : GeneratedName)

theorem canonical_inMetadata : canonical name.inMetadata = name.inMetadata := by
  have hplain : (name.path.flatMap PathPart.chars ++ name.member.inMetadata).all isPlainChar =
      true := by
    rw [List.all_append, (isPath_parts name.path).all_isPlainChar, name.member.all_isPlainChar]
    rfl
  rw [canonical, inMetadata, String.toList_ofList, canonicalChars_eq_self hplain]

theorem ofGenerated_fromMetadata :
    ofGenerated (fromMetadata name.inMetadata) = name.inGraph := by
  have hconstructor := name.member.not_constructor_infix (isPath_parts name.path)
  have henum := not_enum_infix_parts name.path name.member.not_enum_infix
  obtain ⟨front, hfront, hjoined⟩ :=
    exists_joined_eq_append name.path name.ne_nil (by decide : IsPath "::".toList)
  have hpath : pathChars (name.path.flatMap PathPart.chars ++ name.member.inMetadata) =
      front ++ "::".toList ++ plainChars name.member.inMetadata := by
    rw [pathChars_eq_plainChars hconstructor henum, plainChars_parts, hjoined]
  rw [ofGenerated, fromMetadata, inMetadata, inGraph, String.toList_ofList, String.toList_ofList,
    hpath, name.member.generatedChars_plainChars hfront, hjoined]

/-- The metadata spelling of a compiler-generated name leads to the name in the graph, whichever separators and arity
marks it has. A look-up finds the name by it, in every document that has the name and not the spelling itself. -/
theorem managedSpelling_inMetadata :
    Document.managedSpelling (canonical name.inMetadata) = name.inGraph ∧
      ∀ (document : Document) (entry : Entry),
        document.get? (canonical name.inMetadata) = none →
        document.get? name.inGraph = some entry →
          document.lookup? name.inMetadata false = some ⟨name.inGraph, .managed, entry⟩ := by
  have hspelling : Document.managedSpelling (canonical name.inMetadata) = name.inGraph := by
    rw [canonical_inMetadata, Document.managedSpelling, ofGenerated_fromMetadata]
  refine ⟨hspelling, fun document entry hcanonical hentry => ?_⟩
  rw [← hspelling] at hentry ⊢
  exact Document.lookup?_of_managedSpelling hcanonical hentry

end GeneratedName

/-- How an iterator of a generic class is disposed of. -/
def disposal : GeneratedName where
  path := [⟨.ofWord "Game" (by decide) (by decide) (by decide), none, .dot⟩,
    ⟨.ofWord "Pool" (by decide) (by decide) (by decide), some ⟨['1'], by decide, by decide⟩, .slash⟩]
  ne_nil := by decide
  member := .iterator (.ofWord "Spawn" (by decide) (by decide) (by decide))
    ⟨['5'], by decide, by decide⟩ .dot
    [⟨.ofWord "System" (by decide) (by decide) (by decide), none, .colons⟩,
      ⟨.ofWord "IDisposable" (by decide) (by decide) (by decide), none, .slash⟩]
    (.ofWord "Dispose" (by decide) (by decide) (by decide))

/-- A document with the disposal and a function of the same class. -/
def disposals : Document :=
  [("Game::Pool::Clear(void)", ⟨.ofNat 1, ["Run(void)"]⟩),
    ("Game::Pool::_Spawn_d__5::System_IDisposable_Dispose(void)", ⟨.ofNat 2, ["Stop(void)"]⟩)]

theorem managedSpelling_inMetadata_disposal :
    disposal.inMetadata = "Game.Pool\x601/<Spawn>d__5.System::IDisposable/Dispose(void)" ∧
      disposal.inGraph = "Game::Pool::_Spawn_d__5::System_IDisposable_Dispose(void)" ∧
      Document.managedSpelling (canonical disposal.inMetadata) = disposal.inGraph ∧
      disposals.lookup? disposal.inMetadata false =
        some ⟨disposal.inGraph, .managed, ⟨.ofNat 2, ["Stop(void)"]⟩⟩ := by
  have hspelling := disposal.managedSpelling_inMetadata
  have hmissing : disposals.get? (canonical disposal.inMetadata) = none := by decide +kernel
  have hentry : disposals.get? disposal.inGraph = some ⟨.ofNat 2, ["Stop(void)"]⟩ := by
    decide +kernel
  exact ⟨by decide +kernel, by decide +kernel, hspelling.1,
    hspelling.2 disposals _ hmissing hentry⟩

end CallGraph.Name
