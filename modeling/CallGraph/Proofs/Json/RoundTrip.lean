import CallGraph.Proofs.Json.Members
import CallGraph.Proofs.Json.Printing

/-!
# Reading printed JSON

What is printed in either layout is read back as the same value, but for the members of objects, which
take on the order that readers see. The proof follows the printer: a value, its items and its members
are each read up to the character behind them, and the fuel that reading needs is bounded by the length
of what is read.
-/

namespace CallGraph.Json

/-! ### What a value is read back as -/

mutual

/-- What the text of a value is read as. An object takes on the order of members that readers see. -/
inductive ReadsAs : Json → Json → Prop
  | null : ReadsAs .null .null
  | bool (value : Bool) : ReadsAs (.bool value) (.bool value)
  | number {value : Number} {result : Json} (h : NumberReadsAs value result) :
    ReadsAs (.number value) result
  | string (value : String) : ReadsAs (.string value) (.string value)
  | array {items results : List Json} (h : ItemsReadAs items results) :
    ReadsAs (.array items) (.array results)
  | object {members results : Members} (h : MembersReadAs members results) :
    ReadsAs (.object members) (ofMembers results)

inductive ItemsReadAs : List Json → List Json → Prop
  | nil : ItemsReadAs [] []
  | cons {item result : Json} {items results : List Json} (hitem : ReadsAs item result)
    (hitems : ItemsReadAs items results) : ItemsReadAs (item :: items) (result :: results)

inductive MembersReadAs : Members → Members → Prop
  | nil : MembersReadAs [] []
  | cons {key : String} {value result : Json} {members results : Members}
    (hvalue : ReadsAs value result) (hmembers : MembersReadAs members results) :
    MembersReadAs ((key, value) :: members) ((key, result) :: results)

end

/-! ### Blanks -/

theorem skipBlanks_cons {c : Char} (hc : c ∉ [' ', '\n', '\t', '\r']) (text : List Char) :
    skipBlanks (c :: text) = c :: text := by
  simp only [List.mem_cons, List.not_mem_nil, or_false, not_or] at hc
  simp [skipBlanks, hc]

theorem skipBlanks_append {blanks : List Char} (hblanks : blanks ⊆ [' ', '\n', '\t', '\r'])
    (text : List Char) : skipBlanks (blanks ++ text) = skipBlanks text := by
  refine List.dropWhile_append_of_pos fun c hc => ?_
  have hmem := hblanks hc
  simp only [List.mem_cons, List.not_mem_nil, or_false] at hmem
  rcases hmem with rfl | rfl | rfl | rfl <;> rfl

theorem skipBlanks_quote (text : String) (rest : List Char) :
    skipBlanks (quote text ++ rest) = quote text ++ rest := rfl

theorem endsNumeral_append {blanks rest : List Char} (hblanks : blanks ⊆ [' ', '\n', '\t', '\r'])
    (hrest : EndsNumeral rest) : EndsNumeral (blanks ++ rest) := by
  cases blanks with
  | nil => exact hrest
  | cons blank blanks =>
    rintro c ⟨⟩
    have hmem := hblanks List.mem_cons_self
    simp only [List.mem_cons, List.not_mem_nil, or_false] at hmem
    rcases hmem with rfl | rfl | rfl | rfl <;> decide

theorem endsNumeral_newline (margin : Nat) (rest : List Char) :
    EndsNumeral (newline margin ++ rest) := by
  rintro c ⟨⟩
  decide

theorem endsNumeral_comma (rest : List Char) : EndsNumeral (',' :: rest) := by
  rintro c ⟨⟩
  decide

namespace Layout

variable (layout : Layout)

theorem skipBlanks_line (margin : Nat) (text : List Char) :
    skipBlanks (layout.line margin ++ text) = skipBlanks text :=
  skipBlanks_append (layout.line_subset margin) text

theorem skipBlanks_space (text : List Char) : skipBlanks (layout.space ++ text) = skipBlanks text :=
  skipBlanks_append layout.space_subset text

theorem endsNumeral_itemsChars (margin : Nat) (items : List Json) (rest : List Char) :
    EndsNumeral (layout.itemsChars margin items ++ rest) := by
  cases items with
  | nil =>
    rw [itemsChars, List.append_assoc]
    refine endsNumeral_append (layout.line_subset margin) ?_
    rintro c ⟨⟩
    decide
  | cons item items => exact endsNumeral_comma _

theorem endsNumeral_membersChars (margin : Nat) (members : Members) (rest : List Char) :
    EndsNumeral (layout.membersChars margin members ++ rest) := by
  cases members with
  | nil =>
    rw [membersChars, List.append_assoc]
    refine endsNumeral_append (layout.line_subset margin) ?_
    rintro c ⟨⟩
    decide
  | cons member members => exact endsNumeral_comma _

end Layout

section

variable {value result : Json} (h : ReadsAs value result) (layout : Layout) (margin : Nat)

include h

/-- The first character of a printed value is neither a blank nor closes what holds the value. -/
theorem ReadsAs.exists_chars_eq_cons :
    ∃ c others, layout.chars margin value = c :: others ∧ c ∉ [' ', '\n', '\t', '\r'] ∧ c ≠ ']' := by
  cases h with
  | null => exact ⟨_, _, rfl, by decide⟩
  | bool value => cases value <;> exact ⟨_, _, rfl, by decide⟩
  | number h =>
    obtain ⟨c, others, htext⟩ := List.exists_cons_of_ne_nil h.text_ne
    have hc := h.isPlain c (by rw [htext]; exact List.mem_cons_self)
    refine ⟨c, others, htext, fun hblank => hc (List.mem_append_left [']'] hblank), ?_⟩
    rintro rfl
    exact hc (by decide)
  | string value => exact ⟨_, _, rfl, by decide⟩
  | array h => cases h <;> exact ⟨_, _, rfl, by decide⟩
  | object h => cases h <;> exact ⟨_, _, rfl, by decide⟩

theorem ReadsAs.skipBlanks_chars (rest : List Char) :
    skipBlanks (layout.chars margin value ++ rest) = layout.chars margin value ++ rest := by
  obtain ⟨c, others, hchars, hc, -⟩ := h.exists_chars_eq_cons layout margin
  rw [hchars, List.cons_append, skipBlanks_cons hc]

theorem ReadsAs.head?_ne (rest : List Char) :
    (layout.chars margin value ++ rest).head? ≠ some ']' := by
  obtain ⟨c, others, hchars, -, hc⟩ := h.exists_chars_eq_cons layout margin
  rw [hchars]
  exact fun h => hc (Option.some.inj h)

end

/-! ### One step of the reader -/

theorem parseValue_quote (text : String) (rest : List Char) (fuel : Nat) :
    parseValue (fuel + 1) (quote text ++ rest) = .ok (.string text, rest) := by
  obtain ⟨inside, hquote, hinside⟩ := parseString_quote text rest
  rw [hquote, parseValue, hinside, Parsed.map, String.ofList_toList]

theorem parseValue_bracket {text : List Char} (hopen : (skipBlanks text).head? ≠ some ']')
    (fuel : Nat) :
    parseValue (fuel + 1) ('[' :: text) = (parseItems fuel (skipBlanks text)).map .array := by
  rw [parseValue]
  split
  · next hclose =>
    rw [hclose] at hopen
    exact absurd rfl hopen
  · rfl

theorem parseValue_brace {text : List Char} (hopen : (skipBlanks text).head? ≠ some '\x7d')
    (fuel : Nat) :
    parseValue (fuel + 1) ('\x7b' :: text) =
      (parseMembers fuel .noNameOrEnd (skipBlanks text)).map ofMembers := by
  rw [parseValue]
  split
  · next hclose =>
    rw [hclose] at hopen
    exact absurd rfl hopen
  · rfl

theorem parseItems_last {text rest after : List Char} {fuel : Nat} {item : Json}
    (hitem : parseValue fuel (skipBlanks text) = .ok (item, after))
    (hafter : skipBlanks after = ']' :: rest) :
    parseItems (fuel + 1) text = .ok ([item], rest) := by
  rw [parseItems, hitem]
  simp only [hafter]

theorem parseItems_more {text rest after : List Char} {fuel : Nat} {item : Json}
    (hitem : parseValue fuel (skipBlanks text) = .ok (item, after))
    (hafter : skipBlanks after = ',' :: rest) :
    parseItems (fuel + 1) text = (parseItems fuel rest).map (item :: ·) := by
  rw [parseItems, hitem]
  simp only [hafter]

theorem exists_parseString_key {text inside : List Char} {key : String}
    (htext : skipBlanks text = quote key ++ ':' :: inside) :
    ∃ chars colon, skipBlanks text = '"' :: chars ∧
      parseString chars = .ok (key.toList, colon) ∧ skipBlanks colon = ':' :: inside := by
  obtain ⟨chars, hquote, hchars⟩ := parseString_quote key (':' :: inside)
  exact ⟨chars, _, htext.trans hquote, hchars, rfl⟩

theorem parseMembers_last {text inside rest after : List Char} {key : String} {fuel : Nat}
    {value : Json} (flaw : Flaw) (htext : skipBlanks text = quote key ++ ':' :: inside)
    (hvalue : parseValue fuel (skipBlanks inside) = .ok (value, after))
    (hafter : skipBlanks after = '\x7d' :: rest) :
    parseMembers (fuel + 1) flaw text = .ok ([(key, value)], rest) := by
  obtain ⟨chars, colon, hopen, hchars, hcolon⟩ := exists_parseString_key htext
  rw [parseMembers, hopen]
  simp only [hchars, hcolon, hvalue, hafter, String.ofList_toList]

theorem parseMembers_more {text inside rest after : List Char} {key : String} {fuel : Nat}
    {value : Json} (flaw : Flaw) (htext : skipBlanks text = quote key ++ ':' :: inside)
    (hvalue : parseValue fuel (skipBlanks inside) = .ok (value, after))
    (hafter : skipBlanks after = ',' :: rest) :
    parseMembers (fuel + 1) flaw text =
      (parseMembers fuel .noName rest).map ((key, value) :: ·) := by
  obtain ⟨chars, colon, hopen, hchars, hcolon⟩ := exists_parseString_key htext
  rw [parseMembers, hopen]
  simp only [hchars, hcolon, hvalue, hafter, String.ofList_toList]

/-! ### Reading what was printed -/

mutual

/-- The fuel covers a value when it is at least twice the length of its text. -/
theorem parseValue_chars {value result : Json} (h : ReadsAs value result) (layout : Layout)
    (margin fuel : Nat) (rest : List Char)
    (hfuel : 2 * (layout.chars margin value).length ≤ fuel) (hrest : EndsNumeral rest) :
    parseValue fuel (layout.chars margin value ++ rest) = .ok (result, rest) := by
  obtain ⟨c, others, hchars, -, -⟩ := h.exists_chars_eq_cons layout margin
  -- No value is printed as nothing, so that there is fuel for a step.
  obtain ⟨fuel, rfl⟩ : ∃ k, fuel = k + 1 := by
    refine ⟨fuel - 1, ?_⟩
    rw [hchars, List.length_cons] at hfuel
    omega
  match h with
  | .null => rfl
  | .bool true => rfl
  | .bool false => rfl
  | .number h => exact h.parse fuel hrest
  | .string value => exact parseValue_quote value rest fuel
  | .array .nil => rfl
  | .array (@ItemsReadAs.cons item _ items _ hitem hitems) =>
    -- Behind the bracket there are blanks, and then comes an item, not the end of the array.
    have hskip : skipBlanks (layout.line (margin + 2) ++ (layout.chars (margin + 2) item ++
        layout.itemsChars margin items) ++ rest) =
          layout.chars (margin + 2) item ++ (layout.itemsChars margin items ++ rest) := by
      rw [List.append_assoc, List.append_assoc, layout.skipBlanks_line, hitem.skipBlanks_chars]
    have hopen := hitem.head?_ne layout (margin + 2) (layout.itemsChars margin items ++ rest)
    rw [Layout.chars, List.cons_append, parseValue_bracket (by rwa [hskip]), hskip,
      parseItems_itemsChars (.cons hitem hitems) layout margin fuel _ rest
        (hitem.skipBlanks_chars _ _ _)]
    · rfl
    · simp only [Layout.chars, List.length_cons, List.length_append] at hfuel ⊢
      omega
  | .object .nil => rfl
  | .object (@MembersReadAs.cons key value _ members _ hvalue hmembers) =>
    have hskip : skipBlanks (layout.line (margin + 2) ++ (quote key ++ ':' :: (layout.space ++
        (layout.chars (margin + 2) value ++ layout.membersChars margin members))) ++ rest) =
          quote key ++ ':' :: (layout.space ++
            (layout.chars (margin + 2) value ++ (layout.membersChars margin members ++ rest))) := by
      simp only [List.append_assoc, List.cons_append, layout.skipBlanks_line]
      exact skipBlanks_quote key _
    rw [Layout.chars, List.cons_append, parseValue_brace (by rw [hskip]; simp [quote]), hskip,
      parseMembers_membersChars (.cons hvalue hmembers) layout margin fuel .noNameOrEnd _ rest
        (skipBlanks_quote key _)]
    · rfl
    · simp only [Layout.chars, List.length_cons, List.length_append] at hfuel ⊢
      omega
termination_by fuel

theorem parseItems_itemsChars {item : Json} {items results : List Json}
    (h : ItemsReadAs (item :: items) results) (layout : Layout) (margin fuel : Nat)
    (text rest : List Char)
    (htext : skipBlanks text =
      layout.chars (margin + 2) item ++ (layout.itemsChars margin items ++ rest))
    (hfuel : 2 * (layout.chars (margin + 2) item ++ layout.itemsChars margin items).length + 1
      ≤ fuel) :
    parseItems fuel text = .ok (results, rest) := by
  obtain ⟨fuel, rfl⟩ : ∃ k, fuel = k + 1 := ⟨fuel - 1, by omega⟩
  rw [List.length_append] at hfuel
  match h with
  | .cons hitem hitems =>
    have hvalue := parseValue_chars hitem layout (margin + 2) fuel _
      (by omega) (layout.endsNumeral_itemsChars margin items rest)
    rw [← htext] at hvalue
    match hitems with
    | .nil =>
      exact parseItems_last hvalue
        (by rw [Layout.itemsChars, List.append_assoc, layout.skipBlanks_line]; rfl)
    | @ItemsReadAs.cons next _ more _ hnext hmore =>
      have hcomma : skipBlanks (layout.itemsChars margin (next :: more) ++ rest) = ',' ::
          (layout.line (margin + 2) ++ (layout.chars (margin + 2) next ++
            layout.itemsChars margin more) ++ rest) := rfl
      rw [parseItems_more hvalue hcomma,
        parseItems_itemsChars (.cons hnext hmore) layout margin fuel _ rest]
      · rfl
      · rw [List.append_assoc, List.append_assoc, layout.skipBlanks_line, hnext.skipBlanks_chars]
      · simp only [Layout.itemsChars, List.length_cons, List.length_append] at hfuel ⊢
        omega
termination_by fuel

theorem parseMembers_membersChars {key : String} {value : Json} {members results : Members}
    (h : MembersReadAs ((key, value) :: members) results) (layout : Layout) (margin fuel : Nat)
    (flaw : Flaw) (text rest : List Char)
    (htext : skipBlanks text = quote key ++ ':' :: (layout.space ++
      (layout.chars (margin + 2) value ++ (layout.membersChars margin members ++ rest))))
    (hfuel : 2 * (layout.chars (margin + 2) value ++ layout.membersChars margin members).length + 1
      ≤ fuel) :
    parseMembers fuel flaw text = .ok (results, rest) := by
  obtain ⟨fuel, rfl⟩ : ∃ k, fuel = k + 1 := ⟨fuel - 1, by omega⟩
  rw [List.length_append] at hfuel
  match h with
  | .cons hvalue hmembers =>
    have hread := parseValue_chars hvalue layout (margin + 2) fuel _
      (by omega) (layout.endsNumeral_membersChars margin members rest)
    rw [← hvalue.skipBlanks_chars, ← layout.skipBlanks_space] at hread
    match hmembers with
    | .nil =>
      exact parseMembers_last flaw htext hread
        (by rw [Layout.membersChars, List.append_assoc, layout.skipBlanks_line]; rfl)
    | @MembersReadAs.cons nextKey next _ more _ hnext hmore =>
      have hcomma : skipBlanks (layout.membersChars margin ((nextKey, next) :: more) ++ rest) = ',' ::
          (layout.line (margin + 2) ++ (quote nextKey ++ ':' :: (layout.space ++
            (layout.chars (margin + 2) next ++ layout.membersChars margin more))) ++ rest) := rfl
      rw [parseMembers_more flaw htext hread hcomma,
        parseMembers_membersChars (.cons hnext hmore) layout margin fuel .noName _ rest]
      · rfl
      · simp only [List.append_assoc, List.cons_append, layout.skipBlanks_line]
        exact skipBlanks_quote nextKey _
      · simp only [Layout.membersChars, List.length_cons, List.length_append] at hfuel ⊢
        omega
termination_by fuel

end

section

variable {value result : Json} (h : ReadsAs value result)

include h

/-- Reading a printed text gives what its value is read as, and blanks behind it make no difference. -/
theorem parseChars_chars_append (layout : Layout) {rest : List Char} (hrest : EndsNumeral rest)
    (hblank : skipBlanks rest = []) : parseChars (layout.chars 0 value ++ rest) = .ok result := by
  have hfuel : 2 * (layout.chars 0 value).length ≤ 2 * (layout.chars 0 value ++ rest).length + 2 := by
    rw [List.length_append]
    omega
  rw [parseChars, h.skipBlanks_chars, parseValue_chars h layout 0 _ rest hfuel hrest]
  simp only [hblank]

theorem parseChars_prettyChars_append {rest : List Char} (hrest : EndsNumeral rest)
    (hblank : skipBlanks rest = []) : parseChars (prettyChars 0 value ++ rest) = .ok result := by
  rw [← Layout.chars_spread]
  exact parseChars_chars_append h .spread hrest hblank

theorem parseChars_compactChars_append {rest : List Char} (hrest : EndsNumeral rest)
    (hblank : skipBlanks rest = []) : parseChars (compactChars value ++ rest) = .ok result := by
  rw [← Layout.chars_compact 0]
  exact parseChars_chars_append h .compact hrest hblank

theorem parseChars_prettyChars : parseChars (prettyChars 0 value) = .ok result := by
  have hread := parseChars_prettyChars_append h endsNumeral_nil rfl
  rwa [List.append_nil] at hread

end

/-! ### Printed objects -/

/-- A text that starts with a brace has no byte order mark in front. -/
theorem parseFile?_of_brace {text : String} {rest : List Char} (h : text.toList = '\x7b' :: rest) :
    parseFile? text = (parse text).toOption := by
  unfold parseFile? parse
  rw [h]
  split
  · next hmark => exact absurd (List.cons.inj hmark).1 (by decide)
  · rfl

theorem parseFile?_pretty {members : Members} {result : Json} (h : ReadsAs (.object members) result) :
    parseFile? (pretty (.object members)) = some result := by
  have htext : (pretty (.object members)).toList = prettyChars 0 (.object members) :=
    String.toList_ofList
  obtain ⟨rest, hbrace⟩ : ∃ rest, prettyChars 0 (.object members) = '\x7b' :: rest := by
    cases members <;> exact ⟨_, rfl⟩
  rw [parseFile?_of_brace (htext.trans hbrace), parse, htext, parseChars_prettyChars h]
  rfl

mutual

/-- The text of every value is read, as numerals are, whatever number they spell. -/
theorem exists_readsAs : ∀ value : Json, ∃ result, ReadsAs value result
  | .null => ⟨_, .null⟩
  | .bool value => ⟨_, .bool value⟩
  | .number value => by
    obtain ⟨result, hresult⟩ := exists_numberReadsAs value
    exact ⟨result, .number hresult⟩
  | .string value => ⟨_, .string value⟩
  | .array items => by
    obtain ⟨results, hresults⟩ := exists_itemsReadAs items
    exact ⟨_, .array hresults⟩
  | .object members => by
    obtain ⟨results, hresults⟩ := exists_membersReadAs members
    exact ⟨_, .object hresults⟩

theorem exists_itemsReadAs : ∀ items : List Json, ∃ results, ItemsReadAs items results
  | [] => ⟨_, .nil⟩
  | item :: items => by
    obtain ⟨result, hresult⟩ := exists_readsAs item
    obtain ⟨results, hresults⟩ := exists_itemsReadAs items
    exact ⟨_, .cons hresult hresults⟩

theorem exists_membersReadAs : ∀ members : Members, ∃ results, MembersReadAs members results
  | [] => ⟨_, .nil⟩
  | (_, value) :: members => by
    obtain ⟨result, hresult⟩ := exists_readsAs value
    obtain ⟨results, hresults⟩ := exists_membersReadAs members
    exact ⟨_, .cons hresult hresults⟩

end

theorem MembersReadAs.map_fst_eq {members results : Members} (h : MembersReadAs members results) :
    results.map Prod.fst = members.map Prod.fst := by
  induction members generalizing results with
  | nil =>
    cases h
    rfl
  | cons member rest ih =>
    cases h with
    | cons hvalue hmembers => rw [List.map_cons, List.map_cons, ih hmembers]

theorem MembersReadAs.exists_get? {members results : Members} (h : MembersReadAs members results)
    {key : String} {value : Json} (hvalue : Members.get? key members = some value) :
    ∃ result, Members.get? key results = some result ∧ ReadsAs value result := by
  induction members generalizing results with
  | nil => cases hvalue
  | cons member rest ih =>
    cases h with
    | cons hfirst hmembers =>
      rw [Members.get?] at hvalue
      split at hvalue
      · next hkey =>
        cases hvalue
        exact ⟨_, if_pos hkey, hfirst⟩
      · next hkey =>
        obtain ⟨result, hresult, hreads⟩ := ih hmembers hvalue
        exact ⟨result, (if_neg hkey).trans hresult, hreads⟩

/-- A printed object is read as one document, with all of its members. -/
theorem exists_parse_pretty_object {members : Members} (hnodup : (members.map Prod.fst).Nodup)
    {rest : List Char} (hrest : EndsNumeral rest) (hblank : skipBlanks rest = []) :
    ∃ document, parseChars (prettyChars 0 (.object members) ++ rest) = .ok document ∧
      ∀ key value, Members.get? key members = some value →
        ∃ result, document.get? key = some result ∧ ReadsAs value result := by
  obtain ⟨results, hresults⟩ := exists_membersReadAs members
  refine ⟨ofMembers results, parseChars_prettyChars_append (.object hresults) hrest hblank, ?_⟩
  intro key value hvalue
  obtain ⟨result, hresult, hreads⟩ := hresults.exists_get? hvalue
  refine ⟨result, ?_, hreads⟩
  have hkeys : (results.map Prod.fst).Nodup := hresults.map_fst_eq ▸ hnodup
  show Members.get? key (Members.merge [] results) = some result
  rw [Members.get?_merge hkeys, hresult, Option.some_or]

end CallGraph.Json
