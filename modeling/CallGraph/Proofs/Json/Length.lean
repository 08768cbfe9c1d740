import CallGraph.Proofs.Json.Numerals

/-!
# How long printed values are

The length of a value over several lines is counted without printing it, and is that of the text it is
printed as. So whether a value fits a text is decided by the value, and shown by counting what it is made
of: every item of an array and every member of an object takes the room of its own text.
-/

namespace CallGraph

/-! ### Code units -/

namespace Text

@[simp] theorem unitCount_nil : unitCount [] = 0 := rfl

@[simp] theorem unitCount_cons (c : Char) (text : List Char) :
    unitCount (c :: text) = (codeUnits c).length + unitCount text := by
  rw [unitCount, List.flatMap_cons, List.length_append, ← unitCount]

@[simp] theorem unitCount_append (left right : List Char) :
    unitCount (left ++ right) = unitCount left + unitCount right := by
  rw [unitCount, List.flatMap_append, List.length_append, ← unitCount, ← unitCount]

theorem length_codeUnits (c : Char) :
    (codeUnits c).length = if c.toNat < 0x10000 then 1 else 2 := by
  unfold codeUnits
  dsimp only
  split <;> rfl

theorem unitCount_eq_length {text : List Char} (h : ∀ c ∈ text, c.toNat < 0x10000) :
    unitCount text = text.length := by
  induction text with
  | nil => rfl
  | cons c rest ih =>
    obtain ⟨hc, hrest⟩ := List.forall_mem_cons.1 h
    rw [unitCount_cons, length_codeUnits, if_pos hc, ih hrest, List.length_cons, Nat.add_comm]

theorem length_le_unitCount (text : List Char) : text.length ≤ unitCount text := by
  induction text with
  | nil => exact Nat.le_refl 0
  | cons c rest ih =>
    have hc : 1 ≤ (codeUnits c).length := by
      rw [length_codeUnits]
      split <;> decide
    rw [unitCount_cons, List.length_cons]
    omega

theorem length_le_of_fits {text : String} (h : fits text = true) : text.length ≤ maxUnits := by
  rw [fits, decide_eq_true_eq] at h
  exact String.length_toList ▸ (length_le_unitCount text.toList).trans h

/-- Every character has one byte at least and four at most. -/
theorem utf8ByteSize_bounds (text : String) :
    text.length ≤ text.utf8ByteSize ∧ text.utf8ByteSize ≤ 4 * text.length := by
  have hsize : ∀ chars : List Char,
      chars.length ≤ chars.utf8Encode.size ∧ chars.utf8Encode.size ≤ 4 * chars.length := by
    intro chars
    induction chars with
    | nil => exact ⟨Nat.le_refl 0, Nat.le_refl 0⟩
    | cons c rest ih =>
      have hpositive := c.utf8Size_pos
      have hfour := c.utf8Size_le_four
      rw [List.utf8Encode_cons, ByteArray.size_append, List.utf8Encode_singleton,
        List.size_toByteArray, String.length_utf8EncodeChar, List.length_cons]
      omega
  have htext := hsize text.toList
  rwa [String.utf8Encode_toList, String.length_toList] at htext

end Text

namespace Json

open Text (unitCount)

/-! ### Quoted texts -/

theorem unitCount_escape (c : Char) : unitCount (escape c) = escapedSize c := by
  have hdigits : ∀ n < 0x20,
      unitCount ['\\', 'u', '0', '0', Nat.digitChar (n / 16), Nat.digitChar (n % 16)] = 6 := by
    decide
  unfold escape
  split_ifs with h h h h h h h hcontrol
  iterate 7 subst h; rfl
  · rw [hdigits _ hcontrol]
    simp [escapedSize, *]
  · simp [escapedSize, *, Text.length_codeUnits]

theorem quotedSize_eq_sum (text : String) :
    quotedSize text = 2 + (text.toList.map escapedSize).sum := by
  have hfold : ∀ (chars : List Char) (size : Nat),
      chars.foldl (fun size c => size + escapedSize c) size =
        size + (chars.map escapedSize).sum := by
    intro chars
    induction chars with
    | nil => exact fun size => rfl
    | cons c rest ih =>
      intro size
      rw [List.foldl_cons, ih, List.map_cons, List.sum_cons, Nat.add_assoc]
  exact hfold text.toList 2

theorem quotedSize_le_append (left right : String) : quotedSize left ≤ quotedSize (left ++ right) := by
  rw [quotedSize_eq_sum, quotedSize_eq_sum, String.toList_append, List.map_append, List.sum_append]
  omega

theorem unitCount_quote (text : String) : unitCount (quote text) = quotedSize text := by
  have hinside : ∀ chars : List Char,
      unitCount (chars.flatMap escape) = (chars.map escapedSize).sum := by
    intro chars
    induction chars with
    | nil => rfl
    | cons c rest ih =>
      rw [List.flatMap_cons, Text.unitCount_append, unitCount_escape, ih, List.map_cons, List.sum_cons]
  have hmark : unitCount ['"'] = 1 := rfl
  rw [quote, ← List.singleton_append, Text.unitCount_append, Text.unitCount_append, hinside, hmark,
    quotedSize_eq_sum]
  omega

/-! ### Printed values -/

theorem unitCount_numberText (value : Number) : unitCount (numberText value) = (numberText value).length :=
  Text.unitCount_eq_length fun _ hc => (toNat_of_mem_numberText hc).2.trans (by decide)

theorem unitCount_newline (margin : Nat) : unitCount (newline margin) = margin + 1 := by
  have hascii : ∀ c ∈ newline margin, c.toNat < 0x10000 := by
    intro c hc
    rcases List.mem_cons.1 hc with rfl | hspace
    · decide
    · rw [List.eq_of_mem_replicate hspace]
      decide
  rw [Text.unitCount_eq_length hascii, newline, List.length_cons, List.length_replicate]

mutual

/-- The length that is counted is that of the text. -/
theorem unitCount_prettyChars (margin : Nat) :
    ∀ value : Json, unitCount (prettyChars margin value) = prettySize margin value
  | .null => rfl
  | .bool true => rfl
  | .bool false => rfl
  | .number value => unitCount_numberText value
  | .string text => unitCount_quote text
  | .array [] => rfl
  | .array (item :: items) => by
    have hmark : (Text.codeUnits '[').length = 1 := rfl
    rw [prettyChars, prettySize, Text.unitCount_cons, Text.unitCount_append, Text.unitCount_append,
      unitCount_newline, unitCount_prettyChars (margin + 2) item, unitCount_prettyItems margin items, hmark]
    omega
  | .object [] => rfl
  | .object ((key, value) :: members) => by
    have hmark : (Text.codeUnits '\x7b').length = 1 := rfl
    have hcolon : unitCount ": ".toList = 2 := rfl
    simp only [prettyChars, prettySize, Text.unitCount_cons, Text.unitCount_append, unitCount_newline,
      unitCount_quote, unitCount_prettyChars (margin + 2) value, unitCount_prettyMembers margin members,
      hmark, hcolon]
    omega

theorem unitCount_prettyItems (margin : Nat) :
    ∀ items : List Json, unitCount (prettyItems margin items) = prettyItemsSize margin items
  | [] => by
    have hmark : unitCount [']'] = 1 := rfl
    rw [prettyItems, prettyItemsSize, Text.unitCount_append, unitCount_newline, hmark]
  | item :: items => by
    have hmark : (Text.codeUnits ',').length = 1 := rfl
    rw [prettyItems, prettyItemsSize, Text.unitCount_cons, Text.unitCount_append, Text.unitCount_append,
      unitCount_newline, unitCount_prettyChars (margin + 2) item, unitCount_prettyItems margin items, hmark]
    omega

theorem unitCount_prettyMembers (margin : Nat) :
    ∀ members : Members, unitCount (prettyMembers margin members) = prettyMembersSize margin members
  | [] => by
    have hmark : unitCount ['\x7d'] = 1 := rfl
    rw [prettyMembers, prettyMembersSize, Text.unitCount_append, unitCount_newline, hmark]
  | (key, value) :: members => by
    have hmark : (Text.codeUnits ',').length = 1 := rfl
    have hcolon : unitCount ": ".toList = 2 := rfl
    simp only [prettyMembers, prettyMembersSize, Text.unitCount_cons, Text.unitCount_append,
      unitCount_newline, unitCount_quote, unitCount_prettyChars (margin + 2) value,
      unitCount_prettyMembers margin members, hmark, hcolon]
    omega

end

/-! ### Parts and wholes -/

theorem prettyItemsSize_eq_sum (margin : Nat) (items : List Json) :
    prettyItemsSize margin items =
      margin + 2 + (items.map fun item => margin + 4 + prettySize (margin + 2) item).sum := by
  induction items with
  | nil => rfl
  | cons item rest ih =>
    rw [prettyItemsSize, ih, List.map_cons, List.sum_cons]
    omega

theorem prettyMembersSize_eq_sum (margin : Nat) (members : Members) :
    prettyMembersSize margin members = margin + 2 +
      (members.map fun member =>
        margin + 6 + quotedSize member.1 + prettySize (margin + 2) member.2).sum := by
  induction members with
  | nil => rfl
  | cons member rest ih =>
    rw [prettyMembersSize, ih, List.map_cons, List.sum_cons]
    omega

/-- An array takes the room of its items and little more. -/
theorem prettySize_array_bounds (margin : Nat) (items : List Json) :
    (items.map fun item => margin + 4 + prettySize (margin + 2) item).sum ≤
        prettySize margin (.array items) ∧
      prettySize margin (.array items) ≤
        margin + 2 + (items.map fun item => margin + 4 + prettySize (margin + 2) item).sum := by
  cases items with
  | nil => exact ⟨Nat.zero_le _, Nat.le_add_left 2 margin⟩
  | cons item rest =>
    have hwhole : prettySize margin (.array (item :: rest)) = prettyItemsSize margin (item :: rest) := rfl
    rw [hwhole, prettyItemsSize_eq_sum]
    exact ⟨Nat.le_add_left _ _, Nat.le_refl _⟩

/-- An object takes the room of its members and little more. -/
theorem prettySize_object_bounds (margin : Nat) (members : Members) :
    (members.map fun member => margin + 6 + quotedSize member.1 + prettySize (margin + 2) member.2).sum ≤
        prettySize margin (.object members) ∧
      prettySize margin (.object members) ≤ margin + 2 +
        (members.map fun member =>
          margin + 6 + quotedSize member.1 + prettySize (margin + 2) member.2).sum := by
  cases members with
  | nil => exact ⟨Nat.zero_le _, Nat.le_add_left 2 margin⟩
  | cons member rest =>
    have hwhole : prettySize margin (.object (member :: rest)) =
        prettyMembersSize margin (member :: rest) := rfl
    rw [hwhole, prettyMembersSize_eq_sum]
    exact ⟨Nat.le_add_left _ _, Nat.le_refl _⟩

/-- Items that take some room each take as many times that room together. -/
theorem mul_length_le_prettySize {room : Nat} {items : List Json} {margin : Nat}
    (h : ∀ item ∈ items, room ≤ prettySize (margin + 2) item) :
    items.length * room ≤ prettySize margin (.array items) := by
  have hsum := List.card_nsmul_le_sum
    (items.map fun item => margin + 4 + prettySize (margin + 2) item) room
    (List.forall_mem_map.2 fun item hitem => (h item hitem).trans (Nat.le_add_left _ _))
  rw [List.length_map, Nat.nsmul_eq_mul] at hsum
  exact hsum.trans (prettySize_array_bounds margin items).1

/-- A member takes less room than the object, and so does its value. -/
theorem prettySize_le_of_mem {key : String} {value : Json} {members : Members}
    (h : (key, value) ∈ members) (margin : Nat) :
    quotedSize key + prettySize (margin + 2) value ≤ prettySize margin (.object members) := by
  have hsum := List.single_le_sum (by simp) _ (List.mem_map_of_mem
    (f := fun member : String × Json =>
      margin + 6 + quotedSize member.1 + prettySize (margin + 2) member.2) h)
  have hobject := (prettySize_object_bounds margin members).1
  dsimp only at hsum
  omega

theorem escapedSize_le (c : Char) : escapedSize c ≤ 6 := by
  unfold escapedSize
  split_ifs <;> decide

theorem quotedSize_le (text : String) : quotedSize text ≤ 2 + 6 * text.length := by
  have hsum := List.sum_le_card_nsmul (text.toList.map escapedSize) 6
    (List.forall_mem_map.2 fun c _ => escapedSize_le c)
  rw [List.length_map, Nat.nsmul_eq_mul, String.length_toList] at hsum
  rw [quotedSize_eq_sum]
  omega

/-- An integer that is held exactly has sixteen digits at most. -/
theorem length_numberText_ofNat_le {n : Nat} (h : n ≤ Number.maxSafe) :
    (numberText (.ofNat n)).length ≤ 16 := by
  have hlength : (decimalDigits n).length ≤ 16 :=
    (Nat.length_toDigits_le_iff (by decide) (by decide)).2 (h.trans_lt (by decide))
  have hnonneg : ¬ (n : Rat) < 0 := not_lt.2 (Nat.cast_nonneg n)
  rw [Number.ofNat, numberText, Number.toText, if_neg hnonneg, Number.magnitudeText,
    if_pos (by simp [h])]
  simpa using hlength

/-- An object with short keys takes little more room than its values. -/
theorem prettySize_object_le {margin : Nat} (room : Nat) {members : Members}
    (h : ∀ member ∈ members, member.1.length ≤ 32 ∧ prettySize (margin + 2) member.2 ≤ room) :
    prettySize margin (.object members) ≤ margin + 2 + members.length * (margin + 200 + room) := by
  have hmember : ∀ member ∈ members,
      margin + 6 + quotedSize member.1 + prettySize (margin + 2) member.2 ≤ margin + 200 + room := by
    intro member hmember
    obtain ⟨hkey, hvalue⟩ := h member hmember
    have hquoted := quotedSize_le member.1
    omega
  have hsum := List.sum_le_card_nsmul _ _ (List.forall_mem_map.2 hmember)
  rw [List.length_map, Nat.nsmul_eq_mul] at hsum
  have hobject := (prettySize_object_bounds margin members).2
  omega

end Json

end CallGraph
