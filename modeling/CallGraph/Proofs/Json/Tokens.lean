import CallGraph.Json.Parser
import CallGraph.Json.Printer
import CallGraph.Proofs.Number.Safe

/-!
# Strings and runs of digits as JSON tokens

A string reads back as itself: a character that is escaped by its number comes back as a code unit,
and as such characters are no surrogates, no two of them are taken for a pair. A run of digits is read
to its end, and where no character follows that would go on with a numeral, that is all of it.
-/

namespace CallGraph.Json

/-! ### Strings -/

/-- What an escaped character is read as. -/
def pieceOf (c : Char) : Piece :=
  if c.toNat < 0x20 && !(['\n', '\r', '\t', '\x08', '\x0c'].contains c) then .unit c.toNat
  else .char c

theorem codeUnit?_digitChar {n : Nat} (hn : n < 0x20) :
    codeUnit? '0' '0' (Nat.digitChar (n / 16)) (Nat.digitChar (n % 16)) = some n := by
  have hall : ∀ n < 0x20,
      codeUnit? '0' '0' (Nat.digitChar (n / 16)) (Nat.digitChar (n % 16)) = some n := by decide
  exact hall n hn

theorem parsePieces_cons {c : Char} (hquote : c ≠ '"') (hbackslash : c ≠ '\\')
    (hcontrol : ¬ c.toNat < 0x20) (rest : List Char) :
    parsePieces (c :: rest) = (parsePieces rest).map (.char c :: ·) := by
  rw [parsePieces.eq_def]
  split <;> simp_all

theorem parsePieces_escape (c : Char) (rest : List Char) :
    parsePieces (escape c ++ rest) = (parsePieces rest).map (pieceOf c :: ·) := by
  unfold escape
  -- The characters with escapes of their own, the other control characters, and all that are left.
  split_ifs with hquote hbackslash h h h h h hcontrol
  · subst hquote
    simp [parsePieces, unescape?, pieceOf]
  · subst hbackslash
    simp [parsePieces, unescape?, pieceOf]
  iterate 5 subst h; simp [parsePieces, unescape?, pieceOf]
  · have hpiece : pieceOf c = .unit c.toNat := by
      simp [pieceOf, *]
    simp only [List.cons_append, List.nil_append, parsePieces, codeUnit?_digitChar hcontrol, hpiece]
  · rw [List.singleton_append, parsePieces_cons hquote hbackslash hcontrol]
    simp [pieceOf, hcontrol]

theorem ofSurrogates?_eq_none {high : Nat} (hhigh : high < 0x20) (low : Nat) :
    ofSurrogates? high low = none := by
  have hno : ¬ 0xD800 ≤ high := by omega
  simp [ofSurrogates?, hno]

theorem ofCodeUnit_toNat {c : Char} (hc : c.toNat < 0x20) : ofCodeUnit c.toNat = c := by
  have hno : ¬ 0xD800 ≤ c.toNat := by omega
  simp [ofCodeUnit, hno]

/-- The code unit of a control character makes no pair with what follows. -/
theorem joinPieces_unit_cons {unit : Nat} (hunit : unit < 0x20) (pieces : List Piece) :
    joinPieces (.unit unit :: pieces) = ofCodeUnit unit :: joinPieces pieces := by
  rcases pieces with _ | ⟨c | low, rest⟩
  · rfl
  · rfl
  · simp only [joinPieces, ofSurrogates?_eq_none hunit low]

theorem joinPieces_map_pieceOf (text : List Char) : joinPieces (text.map pieceOf) = text := by
  induction text with
  | nil => rfl
  | cons c rest ih =>
    rw [List.map_cons, pieceOf]
    split
    · next hcontrol =>
      simp only [Bool.and_eq_true, decide_eq_true_eq] at hcontrol
      rw [joinPieces_unit_cons hcontrol.1, ofCodeUnit_toNat hcontrol.1, ih]
    · rw [joinPieces, ih]

theorem parsePieces_flatMap_escape (text rest : List Char) :
    parsePieces (text.flatMap escape ++ '"' :: rest) = .ok (text.map pieceOf, rest) := by
  induction text with
  | nil => simp [parsePieces]
  | cons c others ih =>
    rw [List.flatMap_cons, List.append_assoc, parsePieces_escape, ih]
    rfl

theorem parseString_quote (text : String) (rest : List Char) :
    ∃ inside, quote text ++ rest = '"' :: inside ∧
      parseString inside = .ok (text.toList, rest) := by
  refine ⟨text.toList.flatMap escape ++ '"' :: rest, by simp [quote], ?_⟩
  rw [parseString, parsePieces_flatMap_escape, Parsed.map, joinPieces_map_pieceOf]

theorem le_toNat_of_all {text : List Char} (h : (text.all fun c => 0x20 ≤ c.toNat) = true) {c : Char}
    (hc : c ∈ text) : 0x20 ≤ c.toNat :=
  of_decide_eq_true (List.all_eq_true.1 h c hc)

/-- No character that is escaped or left alone is a control character below U+0020. -/
theorem le_toNat_of_mem_escape {c d : Char} (hd : d ∈ escape c) : 0x20 ≤ d.toNat := by
  have hdigits : ∀ n < 0x20, (['\\', 'u', '0', '0', Nat.digitChar (n / 16), Nat.digitChar (n % 16)].all
      fun c => 0x20 ≤ c.toNat) = true := by decide
  unfold escape at hd
  -- The characters with escapes of their own, the other control characters, and all that are left.
  split_ifs at hd with _ _ _ _ _ _ _ hcontrol
  iterate 7 exact le_toNat_of_all (by decide) hd
  · exact le_toNat_of_all (hdigits _ hcontrol) hd
  · rw [List.mem_singleton.1 hd]
    exact not_lt.1 hcontrol

theorem le_toNat_of_mem_quote {text : String} {c : Char} (hc : c ∈ quote text) : 0x20 ≤ c.toNat := by
  simp only [quote, List.mem_cons, List.mem_append, List.mem_flatMap, List.not_mem_nil, or_false] at hc
  rcases hc with rfl | ⟨d, -, hmem⟩ | rfl
  · decide
  · exact le_toNat_of_mem_escape hmem
  · decide

/-! ### Runs of digits -/

/-- A numeral in front of the text ends where the text begins. -/
def EndsNumeral (rest : List Char) : Prop :=
  ∀ c ∈ rest.head?, c.isDigit = false ∧ c ≠ '.' ∧ c ≠ 'e' ∧ c ≠ 'E'

theorem endsNumeral_nil : EndsNumeral [] := by
  intro c hc
  cases hc

theorem digitRun_append {digits rest : List Char} (hdigits : ∀ c ∈ digits, c.isDigit = true)
    (hrest : ∀ c ∈ rest.head?, c.isDigit = false) :
    Decimal.digitRun (digits ++ rest) = (digits, rest) := by
  rw [Decimal.digitRun, List.takeWhile_append_of_pos hdigits, List.dropWhile_append_of_pos hdigits]
  cases rest with
  | nil => simp
  | cons c rest =>
    have hc : c.isDigit = false := hrest c rfl
    simp [hc]

theorem exponent?_of_endsNumeral {rest : List Char} (hrest : EndsNumeral rest) :
    Decimal.exponent? rest = some (0, rest) := by
  cases rest with
  | nil => rfl
  | cons c rest =>
    obtain ⟨-, -, he, hE⟩ := hrest c rfl
    simp [Decimal.exponent?, he, hE]

theorem exists_decimalDigits_eq_cons (n : Nat) :
    ∃ c others, decimalDigits n = c :: others ∧ c.isDigit = true := by
  obtain ⟨c, others, hdigits⟩ :=
    List.exists_cons_of_ne_nil (Nat.toDigits_ne_nil : Nat.toDigits 10 n ≠ [])
  refine ⟨c, others, hdigits, isDigit_of_mem_decimalDigits (n := n) ?_⟩
  rw [decimalDigits, hdigits]
  exact List.mem_cons_self ..

end CallGraph.Json
