import CallGraph.Proofs.Document.Grouping
import CallGraph.Proofs.Text.Pieces
import CallGraph.Proofs.Text.Replacing

/-!
# The instantiations of a generic method

A generic method is given by its path and its parameters, some of which are the generic argument. Its instantiations
share a collapsed name, in which a mark stands for the argument. The argument is looked for as text, though, and not
as a type: an argument whose text occurs inside another parameter is replaced in there as well, and this is the only
thing that keeps an instantiation from collapsing to the shared name.
-/

namespace CallGraph.Name

open CallGraph.Text

/-- The characters of types: anything but brackets and commas, on one line. -/
def isTypeChar (c : Char) : Bool :=
  !isAngle c && c != '(' && c != ')' && c != ',' && !isLineBreak c

structure TypePath where
  chars : List Char
  ne_nil : chars ≠ []
  isType : chars.all isTypeChar = true
  deriving DecidableEq

/-- What stands for the generic argument in a collapsed name. -/
def mark : TypePath :=
  ⟨['T'], by decide, by decide⟩

/-- A generic method: its path, and its parameters, with `none` for the generic argument. -/
structure GenericSignature where
  path : TypePath
  parameters : List (Option TypePath)
  ne_nil : parameters ≠ []

/-- A list of parameters between its brackets. -/
def parameterList (words : List (List Char)) : List Char :=
  '(' :: ([','].intercalate words ++ [')'])

namespace GenericSignature

/-- The parameters of the instantiation at an argument. -/
def fill (signature : GenericSignature) (argument : TypePath) : List (List Char) :=
  signature.parameters.map fun parameter => (parameter.getD argument).chars

def instantiate (signature : GenericSignature) (argument : TypePath) : String :=
  String.ofList (signature.path.chars ++
    '<' :: (argument.chars ++ '>' :: parameterList (signature.fill argument)))

/-- The name that the instantiations are meant to share. -/
def shared (signature : GenericSignature) : String :=
  String.ofList (signature.path.chars ++ parameterList (signature.fill mark))

/-- No parameter but the generic one has the argument in its text; the mark itself may be anywhere. -/
def IsApart (signature : GenericSignature) (argument : TypePath) : Prop :=
  ∀ fixed, some fixed ∈ signature.parameters → argument = mark ∨ ¬ argument.chars <:+: fixed.chars

end GenericSignature

/-! ### Type paths -/

namespace TypePath

variable (path : TypePath)

theorem isType_of_mem {c : Char} (h : c ∈ path.chars) : isTypeChar c = true :=
  List.all_eq_true.1 path.isType c h

theorem not_mem_chars {c : Char} (h : isTypeChar c = false) : c ∉ path.chars := by
  intro hmem
  rw [path.isType_of_mem hmem] at h
  exact absurd h (by decide)

theorem isAngle_of_mem {c : Char} (h : c ∈ path.chars) : isAngle c = false := by
  have htype := path.isType_of_mem h
  simp only [isTypeChar, Bool.and_eq_true, Bool.not_eq_true'] at htype
  exact htype.1.1.1.1

theorem isLineBreak_of_mem {c : Char} (h : c ∈ path.chars) : isLineBreak c = false := by
  have htype := path.isType_of_mem h
  simp only [isTypeChar, Bool.and_eq_true, Bool.not_eq_true'] at htype
  exact htype.2

theorem eq_iff_chars_eq {other : TypePath} : path = other ↔ path.chars = other.chars := by
  cases path
  cases other
  simp

end TypePath

/-! ### Taking an instantiation apart -/

theorem genericArgument?_append (argument : TypePath) (rest : List Char) :
    genericArgument? (argument.chars ++ '>' :: rest) = some (argument.chars, rest) := by
  have hinside : ∀ c ∈ argument.chars, (!isAngle c) = true := fun c hc => by
    rw [argument.isAngle_of_mem hc]
    rfl
  obtain ⟨c, others, hchars⟩ := List.exists_cons_of_ne_nil argument.ne_nil
  rw [genericArgument?, List.takeWhile_append_of_pos hinside, List.dropWhile_append_of_pos hinside,
    List.takeWhile_cons_of_neg (by decide), List.dropWhile_cons_of_neg (by decide), List.append_nil,
    hchars]
  rfl

theorem isParameterList_parameterList {words : List (List Char)}
    (h : ∀ word ∈ words, ∀ c ∈ word, isLineBreak c = false) :
    isParameterList (parameterList words) = true := by
  have hinside : ∀ c ∈ [','].intercalate words, isLineBreak c = false := by
    intro c hc
    rcases mem_of_mem_intercalate hc with rfl | ⟨word, hword, hmem⟩
    · decide
    · exact h word hword c hmem
  simpa [parameterList, isParameterList] using hinside

theorem splitGeneric?_append {tail argument parameters : List Char}
    (htail : genericTail? tail = some ⟨[], argument, parameters⟩) {path : List Char}
    (hangle : ∀ c ∈ path, isAngle c = false) (hbreak : ∀ c ∈ path, isLineBreak c = false) :
    splitGeneric? (path ++ tail) = some ⟨path, argument, parameters⟩ := by
  induction path with
  | nil =>
    cases tail with
    | nil => simp [genericTail?] at htail
    | cons c rest =>
      rw [List.nil_append, splitGeneric?, htail]
      rfl
  | cons c rest ih =>
    obtain ⟨hc, hrestAngle⟩ := List.forall_mem_cons.1 hangle
    obtain ⟨hline, hrestBreak⟩ := List.forall_mem_cons.1 hbreak
    have hnone : genericTail? (c :: (rest ++ tail)) = none := by
      unfold genericTail?
      split
      · next heq =>
        obtain ⟨rfl, -⟩ := List.cons.inj heq
        exact absurd hc (by decide)
      · rfl
    rw [List.cons_append, splitGeneric?, hnone, ih hrestAngle hrestBreak]
    simp [GenericMethod.extend?, hline]

theorem genericMethod?_append (path argument : TypePath) {words : List (List Char)}
    (h : ∀ word ∈ words, ∀ c ∈ word, isLineBreak c = false) :
    genericMethod? (path.chars ++ '<' :: (argument.chars ++ '>' :: parameterList words)) =
      some ⟨path.chars, argument.chars, parameterList words⟩ := by
  have htail : genericTail? ('<' :: (argument.chars ++ '>' :: parameterList words)) =
      some ⟨[], argument.chars, parameterList words⟩ := by
    simp only [genericTail?, genericArgument?_append, isParameterList_parameterList h, if_true]
  obtain ⟨c, others, hchars⟩ := List.exists_cons_of_ne_nil path.ne_nil
  have hothers : ∀ d ∈ others, d ∈ path.chars := fun d hd => hchars ▸ List.mem_cons_of_mem c hd
  have hline : isLineBreak c = false := path.isLineBreak_of_mem (hchars ▸ List.mem_cons_self)
  have hsplit := splitGeneric?_append htail (fun d hd => path.isAngle_of_mem (hothers d hd))
    fun d hd => path.isLineBreak_of_mem (hothers d hd)
  rw [hchars, List.cons_append, genericMethod?, hsplit]
  simp [GenericMethod.extend?, hline]

/-! ### Collapsing an instantiation -/

theorem replaceAll_parameterList (argument : TypePath) (replacement : List Char)
    (words : List (List Char)) :
    replaceAll argument.chars replacement (parameterList words) =
      parameterList (words.map (replaceAll argument.chars replacement)) := by
  have hwords : replaceAll argument.chars replacement ([','].intercalate words) =
      [','].intercalate (words.map (replaceAll argument.chars replacement)) := by
    induction words with
    | nil => rfl
    | cons word rest ih =>
      cases rest with
      | nil => simp
      | cons next rest =>
        rw [List.intercalate_cons_cons, List.append_assoc, List.singleton_append,
          replaceAll_append_cons argument.ne_nil (argument.not_mem_chars (by decide)), ih, List.map_cons,
          List.map_cons, List.map_cons, List.intercalate_cons_cons, List.append_assoc,
          List.singleton_append]
  calc replaceAll argument.chars replacement (parameterList words)
      = [] ++ '(' ::
          replaceAll argument.chars replacement ([','].intercalate words ++ ')' :: []) :=
        replaceAll_append_cons argument.ne_nil (argument.not_mem_chars (by decide)) [] _
    _ = '(' :: (replaceAll argument.chars replacement ([','].intercalate words) ++ ')' :: []) := by
        rw [replaceAll_append_cons argument.ne_nil (argument.not_mem_chars (by decide))]
        rfl
    _ = parameterList (words.map (replaceAll argument.chars replacement)) := by
        rw [hwords]
        rfl

theorem parameterList_inj {words others : List (List Char)} (hwords : words ≠ [])
    (hothers : others ≠ []) (h : ∀ word ∈ words, ',' ∉ word) (h' : ∀ word ∈ others, ',' ∉ word) :
    parameterList words = parameterList others ↔ words = others := by
  refine ⟨fun hsame => ?_, congrArg parameterList⟩
  have hinside : [','].intercalate words = [','].intercalate others :=
    List.append_cancel_right (List.cons.inj hsame).2
  rw [← pieces_intercalate hwords h, hinside, pieces_intercalate hothers h']

namespace GenericSignature

variable (signature : GenericSignature) (argument : TypePath)

theorem isTypeChar_of_mem_fill {word : List Char} (h : word ∈ signature.fill argument) {c : Char}
    (hc : c ∈ word) : isTypeChar c = true := by
  obtain ⟨parameter, -, rfl⟩ := List.mem_map.1 h
  exact (parameter.getD argument).isType_of_mem hc

theorem collapsed_instantiate :
    collapsed (signature.instantiate argument) = String.ofList (signature.path.chars ++
      parameterList ((signature.fill argument).map (replaceAll argument.chars mark.chars))) := by
  have hline : ∀ word ∈ signature.fill argument, ∀ c ∈ word, isLineBreak c = false := by
    intro word hword
    obtain ⟨parameter, -, rfl⟩ := List.mem_map.1 hword
    exact fun c hc => (parameter.getD argument).isLineBreak_of_mem hc
  rw [collapsed, instantiate, String.toList_ofList, collapsedChars,
    genericMethod?_append _ _ hline]
  exact congrArg (fun text => String.ofList (signature.path.chars ++ text))
    (replaceAll_parameterList argument mark.chars _)

theorem fill_replaced_iff :
    (signature.fill argument).map (replaceAll argument.chars mark.chars) = signature.fill mark ↔
      signature.IsApart argument := by
  have hhole : replaceAll argument.chars mark.chars argument.chars = mark.chars := by
    have hfound : replaceAll argument.chars mark.chars (argument.chars ++ []) = mark.chars ++ [] :=
      replaceAll_append argument.ne_nil []
    rwa [List.append_nil, List.append_nil] at hfound
  have hfixed (fixed : TypePath) :
      replaceAll argument.chars mark.chars fixed.chars = fixed.chars ↔
        argument = mark ∨ ¬ argument.chars <:+: fixed.chars := by
    rw [argument.eq_iff_chars_eq]
    exact replaceAll_mark_eq_self_iff argument.ne_nil
  rw [fill, fill, List.map_map, List.map_inj_left]
  constructor
  · intro h fixed hmem
    exact (hfixed fixed).1 (h (some fixed) hmem)
  · intro h parameter hmem
    cases parameter with
    | none => exact hhole
    | some fixed => exact (hfixed fixed).2 (h fixed hmem)

theorem collapsed_instantiate_iff :
    collapsed (signature.instantiate argument) = signature.shared ↔ signature.IsApart argument := by
  have hne (argument : TypePath) : signature.fill argument ≠ [] := by
    simpa [fill] using signature.ne_nil
  have hcomma (argument : TypePath) : ∀ word ∈ signature.fill argument, ',' ∉ word :=
    fun word hword hmem => absurd (signature.isTypeChar_of_mem_fill argument hword hmem) (by decide)
  have hreplaced : ∀ word ∈ (signature.fill argument).map (replaceAll argument.chars mark.chars),
      ',' ∉ word := by
    intro word hword hmem
    obtain ⟨before, hbefore, rfl⟩ := List.mem_map.1 hword
    rcases mem_of_mem_replaceAll argument.ne_nil hmem with hmark | hkept
    · exact absurd hmark (by decide)
    · exact hcomma argument before hbefore hkept
  rw [collapsed_instantiate, shared, String.ofList_inj, List.append_cancel_left_eq,
    parameterList_inj (mt List.map_eq_nil_iff.1 (hne argument)) (hne mark) hreplaced (hcomma mark),
    fill_replaced_iff]

theorem isGeneric_instantiate : Document.isGeneric (signature.instantiate argument) = true := by
  simp [Document.isGeneric, instantiate]

theorem mem_entriesUnder_shared (h : signature.IsApart argument) {document : Document} {entry : Entry}
    (hmem : (signature.instantiate argument, entry) ∈ document) :
    entry ∈ Document.entriesUnder document.generics signature.shared := by
  have hgeneric : (signature.shared, entry) ∈ document.generics := by
    rw [← (signature.collapsed_instantiate_iff argument).2 h]
    exact List.mem_map.2
      ⟨_, List.mem_filter.2 ⟨hmem, signature.isGeneric_instantiate argument⟩, rfl⟩
  exact List.mem_map.2 ⟨_, List.mem_filter.2 ⟨hgeneric, decide_eq_true rfl⟩, rfl⟩

/-- An instantiation collapses to the shared name exactly when its argument is apart from the other parameters, and
all such instantiations in a document are taken together in one entry. -/
theorem collapsed_instances :
    (collapsed (signature.instantiate argument) = signature.shared ↔ signature.IsApart argument) ∧
    ∀ (other : TypePath) (document : Document) (first second : Entry),
      signature.IsApart argument → signature.IsApart other →
      (signature.instantiate argument, first) ∈ document →
      (signature.instantiate other, second) ∈ document →
      ∃ group, Document.entriesUnder document.collapsed signature.shared = [Entry.merged group] ∧
        first ∈ group ∧ second ∈ group := by
  refine ⟨signature.collapsed_instantiate_iff argument, ?_⟩
  intro other document first second hargument hother hfirst hsecond
  have hmem := signature.mem_entriesUnder_shared argument hargument hfirst
  have hkey := Document.mem_keysOf_iff.2 (List.ne_nil_of_mem hmem)
  exact ⟨_, Document.entriesUnder_collapsed hkey, hmem,
    signature.mem_entriesUnder_shared other hother hsecond⟩

end GenericSignature

def intType : TypePath :=
  ⟨"int".toList, by decide, by decide⟩

def charType : TypePath :=
  ⟨"char".toList, by decide, by decide⟩

def boolType : TypePath :=
  ⟨"bool".toList, by decide, by decide⟩

def pointType : TypePath :=
  ⟨"Game::Point".toList, by decide, by decide⟩

/-- A method that takes the generic argument and a point. -/
def fillSignature : GenericSignature :=
  ⟨⟨"Game::Grid::Fill".toList, by decide, by decide⟩, [none, some pointType], by decide⟩

/-- A document with two instantiations of the method. -/
def fills (argument other : TypePath) : Document :=
  [(fillSignature.instantiate argument, ⟨.ofNat 1, ["Run(void)"]⟩),
    (fillSignature.instantiate other, ⟨.ofNat 2, ["Load(void)", "Run(void)"]⟩)]

theorem eq_pointType_of_mem {fixed : TypePath} (h : some fixed ∈ fillSignature.parameters) :
    fixed = pointType := by
  rcases List.mem_cons.1 h with hhole | hfixed
  · exact absurd hhole (Option.some_ne_none fixed)
  · exact Option.some.inj (List.mem_singleton.1 hfixed)

theorem collapsed_instances_fill :
    collapsed (fillSignature.instantiate charType) = fillSignature.shared ∧
      ∃ group, Document.entriesUnder (fills charType boolType).collapsed fillSignature.shared =
          [Entry.merged group] ∧
        ⟨.ofNat 1, ["Run(void)"]⟩ ∈ group ∧ ⟨.ofNat 2, ["Load(void)", "Run(void)"]⟩ ∈ group := by
  have hchar : fillSignature.IsApart charType := fun fixed hfixed =>
    eq_pointType_of_mem hfixed ▸ .inr (by decide +kernel)
  have hbool : fillSignature.IsApart boolType := fun fixed hfixed =>
    eq_pointType_of_mem hfixed ▸ .inr (by decide +kernel)
  have hinstances := fillSignature.collapsed_instances charType
  exact ⟨hinstances.1.2 hchar, hinstances.2 boolType (fills charType boolType) _ _ hchar hbool
    List.mem_cons_self (List.mem_cons_of_mem _ List.mem_cons_self)⟩

/-- The text of `int` stands inside the name of the point, which is another type: the method loses the point, and the
instantiation stays apart from the others. -/
theorem collapsed_fill_int :
    (∀ fixed, some fixed ∈ fillSignature.parameters → fixed ≠ intType) ∧
      fillSignature.instantiate intType = "Game::Grid::Fill<int>(int,Game::Point)" ∧
      fillSignature.shared = "Game::Grid::Fill(T,Game::Point)" ∧
      collapsed (fillSignature.instantiate intType) = "Game::Grid::Fill(T,Game::PoT)" ∧
      (fills intType charType).collapsed.map Prod.fst =
        ["Game::Grid::Fill(T,Game::PoT)", "Game::Grid::Fill(T,Game::Point)"] := by
  refine ⟨fun fixed hfixed => eq_pointType_of_mem hfixed ▸ by decide +kernel, ?_⟩
  decide +kernel

end CallGraph.Name
