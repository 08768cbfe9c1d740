import CallGraph.Proofs.Json.Numerals

/-!
# One printer for both layouts

The two layouts of a value have the same tokens and differ in the blanks between them alone. Both are cases of
one printer that is given its blanks, so that what holds of printed values is proved once. Strings have their
control characters escaped, and all that a printed value has of these are blanks of its layout.
-/

namespace CallGraph.Json

/-- The blanks of a text: those in front of each item and member and of the end of what holds them, which go by
the margin, and those behind a colon. -/
structure Layout where
  line : Nat → List Char
  space : List Char
  line_subset : ∀ margin, line margin ⊆ [' ', '\n', '\t', '\r']
  space_subset : space ⊆ [' ', '\n', '\t', '\r']

namespace Layout

mutual

/-- The value with the blanks of the layout. -/
def chars (layout : Layout) (margin : Nat) : Json → List Char
  | .null => "null".toList
  | .bool true => "true".toList
  | .bool false => "false".toList
  | .number value => numberText value
  | .string value => quote value
  | .array [] => "[]".toList
  | .array (item :: items) =>
    '[' :: (layout.line (margin + 2) ++
      (layout.chars (margin + 2) item ++ layout.itemsChars margin items))
  | .object [] => ['\x7b', '\x7d']
  | .object ((key, value) :: members) =>
    '\x7b' :: (layout.line (margin + 2) ++ (quote key ++ ':' :: (layout.space ++
      (layout.chars (margin + 2) value ++ layout.membersChars margin members))))

/-- The items after the first one, with the closing bracket. -/
def itemsChars (layout : Layout) (margin : Nat) : List Json → List Char
  | [] => layout.line margin ++ [']']
  | item :: items =>
    ',' :: (layout.line (margin + 2) ++
      (layout.chars (margin + 2) item ++ layout.itemsChars margin items))

/-- The members after the first one, with the closing brace. -/
def membersChars (layout : Layout) (margin : Nat) : List (String × Json) → List Char
  | [] => layout.line margin ++ ['\x7d']
  | (key, value) :: members =>
    ',' :: (layout.line (margin + 2) ++ (quote key ++ ':' :: (layout.space ++
      (layout.chars (margin + 2) value ++ layout.membersChars margin members))))

end

/-! ### The two layouts -/

/-- Each item and member on a line of its own. -/
def spread : Layout where
  line := newline
  space := [' ']
  line_subset margin c hc := by
    rcases List.mem_cons.1 hc with rfl | hspace
    · decide
    · rw [List.eq_of_mem_replicate hspace]
      decide
  space_subset := by decide

/-- No blanks at all. -/
def compact : Layout where
  line _ := []
  space := []
  line_subset _ := List.nil_subset _
  space_subset := List.nil_subset _

mutual

theorem chars_spread (margin : Nat) : ∀ value : Json, spread.chars margin value = prettyChars margin value
  | .null => rfl
  | .bool true => rfl
  | .bool false => rfl
  | .number _ => rfl
  | .string _ => rfl
  | .array [] => rfl
  | .array (item :: items) => by
    simp only [chars, prettyChars, chars_spread (margin + 2) item, itemsChars_spread margin items,
      List.append_assoc]
    rfl
  | .object [] => rfl
  | .object ((key, value) :: members) => by
    simp only [chars, prettyChars, chars_spread (margin + 2) value, membersChars_spread margin members,
      List.append_assoc]
    rfl

theorem itemsChars_spread (margin : Nat) :
    ∀ items : List Json, spread.itemsChars margin items = prettyItems margin items
  | [] => rfl
  | item :: items => by
    simp only [itemsChars, prettyItems, chars_spread (margin + 2) item, itemsChars_spread margin items,
      List.append_assoc]
    rfl

theorem membersChars_spread (margin : Nat) :
    ∀ members : Members, spread.membersChars margin members = prettyMembers margin members
  | [] => rfl
  | (key, value) :: members => by
    simp only [membersChars, prettyMembers, chars_spread (margin + 2) value,
      membersChars_spread margin members, List.append_assoc]
    rfl

end

mutual

theorem chars_compact (margin : Nat) : ∀ value : Json, compact.chars margin value = compactChars value
  | .null => rfl
  | .bool true => rfl
  | .bool false => rfl
  | .number _ => rfl
  | .string _ => rfl
  | .array [] => rfl
  | .array (item :: items) => by
    simp only [chars, compactChars, chars_compact (margin + 2) item, itemsChars_compact margin items]
    rfl
  | .object [] => rfl
  | .object ((key, value) :: members) => by
    simp only [chars, compactChars, chars_compact (margin + 2) value, membersChars_compact margin members]
    rfl

theorem itemsChars_compact (margin : Nat) :
    ∀ items : List Json, compact.itemsChars margin items = compactItems items
  | [] => rfl
  | item :: items => by
    simp only [itemsChars, compactItems, chars_compact (margin + 2) item, itemsChars_compact margin items]
    rfl

theorem membersChars_compact (margin : Nat) :
    ∀ members : Members, compact.membersChars margin members = compactMembers members
  | [] => rfl
  | (key, value) :: members => by
    simp only [membersChars, compactMembers, chars_compact (margin + 2) value, membersChars_compact margin members]
    rfl

end

/-! ### Control characters -/

/-- The character is no control character, or else one of the blanks of the layout. -/
def Allows (layout : Layout) (c : Char) : Prop :=
  0x20 ≤ c.toNat ∨ c ∈ layout.space ∨ ∃ margin, c ∈ layout.line margin

variable {layout : Layout}

theorem allows_of_mem_line (margin : Nat) : ∀ c ∈ layout.line margin, layout.Allows c :=
  fun _ hc => .inr (.inr ⟨margin, hc⟩)

theorem allows_of_mem_space : ∀ c ∈ layout.space, layout.Allows c :=
  fun _ hc => .inr (.inl hc)

theorem allows_of_mem_quote (text : String) : ∀ c ∈ quote text, layout.Allows c :=
  fun _ hc => .inl (le_toNat_of_mem_quote hc)

theorem allows_of_mem_word (word : String) (h : (word.toList.all fun c => 0x20 ≤ c.toNat) = true) :
    ∀ c ∈ word.toList, layout.Allows c :=
  fun _ hc => .inl (le_toNat_of_all h hc)

mutual

/-- What a value is made of apart from the blanks of its layout has no control characters. -/
theorem allows_of_mem_chars (margin : Nat) : ∀ value : Json, ∀ c ∈ layout.chars margin value, layout.Allows c
  | .null => allows_of_mem_word "null" (by decide)
  | .bool true => allows_of_mem_word "true" (by decide)
  | .bool false => allows_of_mem_word "false" (by decide)
  | .number _ => fun _ hc => .inl (toNat_of_mem_numberText hc).1
  | .string text => allows_of_mem_quote text
  | .array [] => allows_of_mem_word "[]" (by decide)
  | .array (item :: items) => by
    simp only [chars, List.forall_mem_cons, List.forall_mem_append]
    exact ⟨.inl (by decide), allows_of_mem_line _, allows_of_mem_chars (margin + 2) item,
      allows_of_mem_itemsChars margin items⟩
  | .object [] => allows_of_mem_word "\x7b\x7d" (by decide)
  | .object ((key, value) :: members) => by
    simp only [chars, List.forall_mem_cons, List.forall_mem_append]
    exact ⟨.inl (by decide), allows_of_mem_line _, allows_of_mem_quote key, .inl (by decide),
      allows_of_mem_space, allows_of_mem_chars (margin + 2) value, allows_of_mem_membersChars margin members⟩

theorem allows_of_mem_itemsChars (margin : Nat) :
    ∀ items : List Json, ∀ c ∈ layout.itemsChars margin items, layout.Allows c
  | [] => by
    simp only [itemsChars, List.forall_mem_append, List.forall_mem_singleton]
    exact ⟨allows_of_mem_line _, .inl (by decide)⟩
  | item :: items => by
    simp only [itemsChars, List.forall_mem_cons, List.forall_mem_append]
    exact ⟨.inl (by decide), allows_of_mem_line _, allows_of_mem_chars (margin + 2) item,
      allows_of_mem_itemsChars margin items⟩

theorem allows_of_mem_membersChars (margin : Nat) :
    ∀ members : Members, ∀ c ∈ layout.membersChars margin members, layout.Allows c
  | [] => by
    simp only [membersChars, List.forall_mem_append, List.forall_mem_singleton]
    exact ⟨allows_of_mem_line _, .inl (by decide)⟩
  | (key, value) :: members => by
    simp only [membersChars, List.forall_mem_cons, List.forall_mem_append]
    exact ⟨.inl (by decide), allows_of_mem_line _, allows_of_mem_quote key, .inl (by decide),
      allows_of_mem_space, allows_of_mem_chars (margin + 2) value, allows_of_mem_membersChars margin members⟩

end

end Layout

/-- A value on one line has no control characters at all. -/
theorem le_toNat_of_mem_compactChars {value : Json} {c : Char} (hc : c ∈ compactChars value) :
    0x20 ≤ c.toNat := by
  rw [← Layout.chars_compact 0] at hc
  rcases Layout.allows_of_mem_chars 0 value c hc with hvisible | hspace | ⟨_, hline⟩
  · exact hvisible
  · cases hspace
  · cases hline

end CallGraph.Json
