import CallGraph.Json.Parser
import CallGraph.Proofs.Json.Members

/-!
# Arrays are no longer than their texts

Reading only goes forward, and every item of an array takes a bracket or a comma of its own. No
array in a value therefore has more items than the text of the value has characters.
-/

namespace CallGraph.Json

/-- No array in the value has more items than the bound. -/
inductive ArraysWithin (bound : Nat) : Json → Prop
  | null : ArraysWithin bound .null
  | bool (value : Bool) : ArraysWithin bound (.bool value)
  | number (value : Number) : ArraysWithin bound (.number value)
  | string (value : String) : ArraysWithin bound (.string value)
  | array {items : List Json} (hlength : items.length ≤ bound)
    (hitems : ∀ item ∈ items, ArraysWithin bound item) : ArraysWithin bound (.array items)
  | object {members : Members} (hmembers : ∀ member ∈ members, ArraysWithin bound member.2) :
    ArraysWithin bound (.object members)

theorem Parsed.map_eq_ok_iff {α β : Type} {f : α → β} {parsed : Parsed α} {result : β}
    {rest : List Char} :
    parsed.map f = .ok (result, rest) ↔ ∃ value, parsed = .ok (value, rest) ∧ f value = result := by
  rcases parsed with failure | ⟨value, left⟩
  · simp [Parsed.map]
  · simp only [Parsed.map, Except.ok.injEq, Prod.mk.injEq]
    constructor
    · rintro ⟨rfl, rfl⟩
      exact ⟨value, ⟨rfl, rfl⟩, rfl⟩
    · rintro ⟨_, ⟨rfl, rfl⟩, rfl⟩
      exact ⟨rfl, rfl⟩

/-! ### Tokens -/

theorem length_skipBlanks_le (text : List Char) : (skipBlanks text).length ≤ text.length :=
  (List.dropWhile_suffix _).length_le

theorem length_le_of_parsePieces {text rest : List Char} {pieces : List Piece}
    (h : parsePieces text = .ok (pieces, rest)) : rest.length ≤ text.length := by
  fun_induction parsePieces text generalizing pieces with
  | case1 => cases h
  | case2 left =>
    cases h
    simp
  | case3 a b c d left unit hunit ih =>
    obtain ⟨_, hleft, -⟩ := Parsed.map_eq_ok_iff.1 h
    have := ih hleft
    simp only [List.length_cons]
    omega
  | case4 => cases h
  | case5 => cases h
  | case6 c left hshort char hchar ih =>
    obtain ⟨_, hleft, -⟩ := Parsed.map_eq_ok_iff.1 h
    have := ih hleft
    simp only [List.length_cons]
    omega
  | case7 => cases h
  | case8 => cases h
  | case9 c left hquote hescape hbackslash hplain hcontrol ih =>
    obtain ⟨_, hleft, -⟩ := Parsed.map_eq_ok_iff.1 h
    have := ih hleft
    simp only [List.length_cons]
    omega

theorem length_le_of_parseString {text rest chars : List Char}
    (h : parseString text = .ok (chars, rest)) : rest.length ≤ text.length := by
  obtain ⟨pieces, hpieces, -⟩ := Parsed.map_eq_ok_iff.1 h
  exact length_le_of_parsePieces hpieces

theorem length_le_of_parseWord {value result : Json} {word text rest : List Char}
    (h : parseWord value word text = .ok (result, rest)) :
    result = value ∧ rest.length ≤ text.length := by
  fun_induction parseWord value word text with
  | case1 text =>
    cases h
    exact ⟨rfl, Nat.le_refl _⟩
  | case2 => cases h
  | case3 rest c text ih =>
    obtain ⟨hvalue, hlength⟩ := ih h
    exact ⟨hvalue, Nat.le_succ_of_le hlength⟩
  | case4 => cases h

theorem length_snd_digitRun_le (text : List Char) :
    (Decimal.digitRun text).2.length ≤ text.length :=
  (List.dropWhile_suffix _).length_le

theorem length_le_of_exponent? {text rest : List Char} {exponent : Int}
    (h : Decimal.exponent? text = some (exponent, rest)) : rest.length ≤ text.length := by
  unfold Decimal.exponent? at h
  split at h
  · next c tail =>
    split at h
    · dsimp only at h
      split at h
      · cases h
      · next hrun =>
        obtain ⟨-, rfl⟩ := Prod.mk.inj (Option.some.inj h)
        have hlength := congrArg (fun pair => pair.2.length) hrun
        dsimp only at hlength
        refine Nat.le_succ_of_le ?_
        rw [← hlength]
        refine Nat.le_trans (length_snd_digitRun_le _) ?_
        -- A sign in front of the digits is dropped, and nothing else.
        split <;> simp
    · cases h
      exact Nat.le_refl _
  · cases h
    exact Nat.le_refl _

theorem length_le_of_parseExponent {negative : Bool} {whole fraction text rest : List Char}
    {value : Number} (h : parseExponent negative whole fraction text = .ok (value, rest)) :
    rest.length ≤ text.length := by
  unfold parseExponent at h
  split at h
  · next hexponent =>
    cases h
    exact length_le_of_exponent? hexponent
  · cases h

theorem length_le_of_parseMagnitude {negative : Bool} {text rest : List Char} {value : Number}
    (h : parseMagnitude negative text = .ok (value, rest)) : rest.length ≤ text.length := by
  have hrun := length_snd_digitRun_le text
  unfold parseMagnitude at h
  split at h
  · cases h
  · cases h
  · next tail _ _ hwhole =>
    rw [hwhole, List.length_cons] at hrun
    have hfraction := length_snd_digitRun_le tail
    split at h
    · cases h
    · next hdigits =>
      rw [hdigits] at hfraction
      dsimp only at hfraction
      have := length_le_of_parseExponent h
      omega
  · next whole left _ _ hwhole =>
    rw [hwhole] at hrun
    exact Nat.le_trans (length_le_of_parseExponent h) hrun

theorem length_le_of_parseNumber {text rest : List Char} {value : Number}
    (h : parseNumber text = .ok (value, rest)) : rest.length ≤ text.length := by
  unfold parseNumber at h
  split at h
  · exact Nat.le_succ_of_le (length_le_of_parseMagnitude h)
  · exact length_le_of_parseMagnitude h

/-! ### Values -/

theorem mem_of_mem_replace {key : String} {value : Json} {members : Members}
    {member : String × Json} (h : member ∈ Members.replace key value members) :
    member = (key, value) ∨ member ∈ members := by
  induction members with
  | nil => simp [Members.replace] at h
  | cons first rest ih =>
    rw [Members.replace] at h
    split at h
    · next hsame =>
      rw [hsame] at h
      rcases List.mem_cons.1 h with rfl | hrest
      · exact .inl rfl
      · exact .inr (List.mem_cons_of_mem _ hrest)
    · rcases List.mem_cons.1 h with rfl | hrest
      · exact .inr (List.mem_cons_self ..)
      · exact (ih hrest).imp_right (List.mem_cons_of_mem _)

theorem mem_of_mem_merge {base extra : Members} {member : String × Json}
    (h : member ∈ Members.merge base extra) : member ∈ base ∨ member ∈ extra := by
  induction extra generalizing base with
  | nil => exact .inl h
  | cons first rest ih =>
    have hinsert : member ∈ Members.merge (Members.insert base first.1 first.2) rest := h
    rcases ih hinsert with hbase | hrest
    · unfold Members.insert at hbase
      split at hbase
      · exact (mem_of_mem_replace hbase).elim (fun h => .inr (h ▸ List.mem_cons_self ..)) .inl
      · rcases List.mem_cons.1 ((Members.perm_place ..).mem_iff.1 hbase) with rfl | hpresent
        · exact .inr (List.mem_cons_self ..)
        · exact .inl hpresent
    · exact .inr (List.mem_cons_of_mem _ hrest)

theorem mem_of_mem_ofList {pairs : Members} {member : String × Json}
    (h : member ∈ Members.ofList pairs) : member ∈ pairs :=
  (mem_of_mem_merge h).resolve_left List.not_mem_nil

/-- What reading a value, the items of an array or the members of an object says of arrays, as long
as no more text is left than a bound. -/
structure Bounded (bound fuel : Nat) : Prop where
  value : ∀ {text rest : List Char} {value : Json}, text.length ≤ bound →
    parseValue fuel text = .ok (value, rest) →
      rest.length ≤ text.length ∧ ArraysWithin bound value
  items : ∀ {text rest : List Char} {items : List Json}, text.length ≤ bound →
    parseItems fuel text = .ok (items, rest) →
      items.length + rest.length ≤ text.length ∧ ∀ item ∈ items, ArraysWithin bound item
  members : ∀ {text rest : List Char} {flaw : Flaw} {members : Members}, text.length ≤ bound →
    parseMembers fuel flaw text = .ok (members, rest) →
      rest.length ≤ text.length ∧ ∀ member ∈ members, ArraysWithin bound member.2

theorem bounded_zero (bound : Nat) : Bounded bound 0 where
  value _ h := nomatch h
  items _ h := nomatch h
  members _ h := nomatch h

theorem Bounded.value_succ {bound fuel : Nat} (h : Bounded bound fuel) {text rest : List Char}
    {value : Json} (htext : text.length ≤ bound)
    (hvalue : parseValue (fuel + 1) text = .ok (value, rest)) :
    rest.length ≤ text.length ∧ ArraysWithin bound value := by
  rw [parseValue.eq_def] at hvalue
  dsimp only at hvalue
  split at hvalue
  · next inside =>
    have hskip := length_skipBlanks_le inside
    rw [List.length_cons] at htext
    split at hvalue
    · next closing hclose =>
      cases hvalue
      rw [hclose, List.length_cons] at hskip
      exact ⟨by rw [List.length_cons]; omega, .object (by simp)⟩
    · obtain ⟨members, hmembers, rfl⟩ := Parsed.map_eq_ok_iff.1 hvalue
      obtain ⟨hlength, hwithin⟩ := h.members (by omega) hmembers
      exact ⟨by rw [List.length_cons]; omega,
        .object fun member hmember => hwithin member (mem_of_mem_ofList hmember)⟩
  · next inside =>
    have hskip := length_skipBlanks_le inside
    rw [List.length_cons] at htext
    split at hvalue
    · next closing hclose =>
      cases hvalue
      rw [hclose, List.length_cons] at hskip
      exact ⟨by rw [List.length_cons]; omega, .array (Nat.zero_le _) (by simp)⟩
    · obtain ⟨items, hitems, rfl⟩ := Parsed.map_eq_ok_iff.1 hvalue
      obtain ⟨hlength, hwithin⟩ := h.items (by omega) hitems
      exact ⟨by rw [List.length_cons]; omega, .array (by omega) hwithin⟩
  · next inside =>
    obtain ⟨chars, hchars, rfl⟩ := Parsed.map_eq_ok_iff.1 hvalue
    exact ⟨Nat.le_succ_of_le (length_le_of_parseString hchars), .string _⟩
  · obtain ⟨rfl, hlength⟩ := length_le_of_parseWord hvalue
    exact ⟨hlength, .bool true⟩
  · obtain ⟨rfl, hlength⟩ := length_le_of_parseWord hvalue
    exact ⟨hlength, .bool false⟩
  · obtain ⟨rfl, hlength⟩ := length_le_of_parseWord hvalue
    exact ⟨hlength, .null⟩
  · obtain ⟨number, hnumber, rfl⟩ := Parsed.map_eq_ok_iff.1 hvalue
    exact ⟨length_le_of_parseNumber hnumber, .number number⟩

theorem Bounded.items_succ {bound fuel : Nat} (h : Bounded bound fuel) {text rest : List Char}
    {items : List Json} (htext : text.length ≤ bound)
    (hitems : parseItems (fuel + 1) text = .ok (items, rest)) :
    items.length + rest.length ≤ text.length ∧ ∀ item ∈ items, ArraysWithin bound item := by
  have hskip := length_skipBlanks_le text
  rw [parseItems] at hitems
  split at hitems
  · cases hitems
  · next item after hitem =>
    obtain ⟨hlength, hwithin⟩ := h.value (by omega) hitem
    have hafter := length_skipBlanks_le after
    split at hitems
    · next hclose =>
      cases hitems
      rw [hclose, List.length_cons] at hafter
      exact ⟨by rw [List.length_singleton]; omega, by simpa using hwithin⟩
    · next more hcomma =>
      obtain ⟨others, hothers, rfl⟩ := Parsed.map_eq_ok_iff.1 hitems
      rw [hcomma, List.length_cons] at hafter
      obtain ⟨hmore, hrest⟩ := h.items (by omega) hothers
      exact ⟨by rw [List.length_cons]; omega, List.forall_mem_cons.2 ⟨hwithin, hrest⟩⟩
    · cases hitems

theorem Bounded.members_succ {bound fuel : Nat} (h : Bounded bound fuel) {text rest : List Char}
    {flaw : Flaw} {members : Members} (htext : text.length ≤ bound)
    (hmembers : parseMembers (fuel + 1) flaw text = .ok (members, rest)) :
    rest.length ≤ text.length ∧ ∀ member ∈ members, ArraysWithin bound member.2 := by
  have hskip := length_skipBlanks_le text
  rw [parseMembers] at hmembers
  split at hmembers
  · next inside hopen =>
    rw [hopen, List.length_cons] at hskip
    split at hmembers
    · cases hmembers
    · next key behind hkey =>
      have hname := length_le_of_parseString hkey
      have hbehind := length_skipBlanks_le behind
      split at hmembers
      · next colon hcolon =>
        rw [hcolon, List.length_cons] at hbehind
        have hspace := length_skipBlanks_le colon
        split at hmembers
        · cases hmembers
        · next value after hvalue =>
          obtain ⟨hlength, hwithin⟩ := h.value (by omega) hvalue
          have hafter := length_skipBlanks_le after
          split at hmembers
          · next hclose =>
            cases hmembers
            rw [hclose, List.length_cons] at hafter
            exact ⟨by omega, by simpa using hwithin⟩
          · next more hcomma =>
            obtain ⟨others, hothers, rfl⟩ := Parsed.map_eq_ok_iff.1 hmembers
            rw [hcomma, List.length_cons] at hafter
            obtain ⟨hmore, hrest⟩ := h.members (by omega) hothers
            exact ⟨by omega, List.forall_mem_cons.2 ⟨hwithin, hrest⟩⟩
          · cases hmembers
      · cases hmembers
  · cases hmembers

theorem bounded (bound fuel : Nat) : Bounded bound fuel := by
  induction fuel with
  | zero => exact bounded_zero bound
  | succ fuel ih => exact ⟨ih.value_succ, ih.items_succ, ih.members_succ⟩

theorem arraysWithin_of_parseChars {text : List Char} {value : Json}
    (h : parseChars text = .ok value) : ArraysWithin text.length value := by
  unfold parseChars at h
  split at h
  · cases h
  · next hvalue =>
    split at h
    · cases h
      exact ((bounded text.length _).value (length_skipBlanks_le text) hvalue).2
    · cases h

theorem ArraysWithin.mono {bound larger : Nat} (hle : bound ≤ larger) {value : Json}
    (h : ArraysWithin bound value) : ArraysWithin larger value := by
  induction h with
  | null => exact .null
  | bool value => exact .bool value
  | number value => exact .number value
  | string value => exact .string value
  | array hlength _ ih => exact .array (Nat.le_trans hlength hle) ih
  | object _ ih => exact .object ih

theorem arraysWithin_of_parseFile? {text : String} {value : Json}
    (h : parseFile? text = some value) : ArraysWithin text.length value := by
  have hchars {chars : List Char} (hchars : (parseChars chars).toOption = some value) :
      ArraysWithin chars.length value := by
    cases hparsed : parseChars chars with
    | error failure =>
      rw [hparsed] at hchars
      cases hchars
    | ok result =>
      rw [hparsed] at hchars
      cases hchars
      exact arraysWithin_of_parseChars hparsed
  rw [← String.length_toList]
  unfold parseFile? at h
  split at h
  · next rest hmark =>
    rw [hmark]
    exact (hchars h).mono (Nat.le_succ _)
  · exact hchars h

end CallGraph.Json
