import CallGraph.Proofs.Json.Tokens
import CallGraph.Proofs.Number.Shortest

/-!
# Numbers as JSON tokens

However a finite number is laid out, its text is a numeral that JSON can hold: digits without a zero
in front, perhaps a fraction, and perhaps an exponent. An infinity is written as `null`. So the text
of every number is read as a value, up to where the numeral ends, and a number of the format as itself:
the layout moves the point and fills in zeros, but keeps what the digits stand for.
-/

namespace CallGraph.Json

/-! ### Numerals -/

/-- An unsigned numeral: digits in front of the point and behind it, and an exponent if there is one. -/
structure Numeral where
  whole : List Char
  fraction : List Char
  power? : Option Int

namespace Numeral

def fractionText (digits : List Char) : List Char :=
  if digits.isEmpty then [] else '.' :: digits

def powerText : Option Int → List Char
  | none => []
  | some power => 'e' :: (if power < 0 then '-' else '+') :: decimalDigits power.natAbs

def text (numeral : Numeral) : List Char :=
  numeral.whole ++ (fractionText numeral.fraction ++ powerText numeral.power?)

/-- The numeral keeps to the rules for digits; a zero in front stands alone. -/
structure IsProper (numeral : Numeral) : Prop where
  whole_ne : numeral.whole ≠ []
  leading : ∀ digit more, numeral.whole ≠ '0' :: digit :: more
  isDigit_whole : ∀ c ∈ numeral.whole, c.isDigit = true
  isDigit_fraction : ∀ c ∈ numeral.fraction, c.isDigit = true

variable {numeral : Numeral}

theorem isDigit_of_mem_powerText {power? : Option Int} {c : Char} (hc : c ∈ powerText power?) :
    c.isDigit = true ∨ c ∈ ['.', 'e', '-', '+'] := by
  cases power? with
  | none => cases hc
  | some power =>
    rw [powerText, List.mem_cons, List.mem_cons] at hc
    rcases hc with rfl | rfl | hdigit
    · exact .inr (by decide)
    · right
      split <;> decide
    · exact .inl (isDigit_of_mem_decimalDigits hdigit)

theorem IsProper.isDigit_of_mem_text (h : numeral.IsProper) {c : Char} (hc : c ∈ numeral.text) :
    c.isDigit = true ∨ c ∈ ['.', 'e', '-', '+'] := by
  rw [text, List.mem_append, List.mem_append] at hc
  rcases hc with hwhole | hfraction | hpower
  · exact .inl (h.isDigit_whole c hwhole)
  · unfold fractionText at hfraction
    split at hfraction
    · cases hfraction
    · rcases List.mem_cons.1 hfraction with rfl | hdigit
      · exact .inr (by decide)
      · exact .inl (h.isDigit_fraction c hdigit)
  · exact isDigit_of_mem_powerText hpower

theorem IsProper.exists_text_eq_cons (h : numeral.IsProper) :
    ∃ c others, numeral.text = c :: others ∧ c.isDigit = true := by
  obtain ⟨c, others, hwhole⟩ := List.exists_cons_of_ne_nil h.whole_ne
  refine ⟨c, others ++ (fractionText numeral.fraction ++ powerText numeral.power?), ?_, ?_⟩
  · rw [text, hwhole, List.cons_append]
  · apply h.isDigit_whole
    rw [hwhole]
    exact List.mem_cons_self

/-! ### Reading numerals -/

variable {rest : List Char}

theorem head?_powerText_append (hrest : EndsNumeral rest) (power? : Option Int) :
    ∀ c ∈ (powerText power? ++ rest).head?, c.isDigit = false ∧ c ≠ '.' := by
  cases power? with
  | none =>
    intro c hc
    exact ⟨(hrest c hc).1, (hrest c hc).2.1⟩
  | some power =>
    rintro c ⟨⟩
    decide

theorem exponent?_powerText_append (hrest : EndsNumeral rest) (power? : Option Int) :
    Decimal.exponent? (powerText power? ++ rest) = some (power?.getD 0, rest) := by
  cases power? with
  | none => exact exponent?_of_endsNumeral hrest
  | some power =>
    have hrun : Decimal.digitRun (decimalDigits power.natAbs ++ rest) =
        (decimalDigits power.natAbs, rest) :=
      digitRun_append (fun _ => isDigit_of_mem_decimalDigits) fun c hc => (hrest c hc).1
    obtain ⟨c, others, hdigits, -⟩ := exists_decimalDigits_eq_cons power.natAbs
    have hvalue : Nat.ofDigitChars 10 (c :: others) 0 = power.natAbs := by
      rw [← hdigits]
      exact Nat.ofDigitChars_ten_toDigits
    rw [hdigits, List.cons_append] at hrun
    by_cases hpower : power < 0
    · have hsign : -|power| = power := by rw [abs_of_neg hpower, neg_neg]
      simp [powerText, hpower, hdigits, Decimal.exponent?, hrun, hvalue, hsign]
    · have hsign : |power| = power := abs_of_nonneg (not_lt.1 hpower)
      simp [powerText, hpower, hdigits, Decimal.exponent?, hrun, hvalue, hsign]

/-- The numeral with a sign, as a decimal one. -/
def decimal (numeral : Numeral) (negative : Bool) : Decimal :=
  .ofParts negative numeral.whole numeral.fraction (numeral.power?.getD 0)

theorem IsProper.parseMagnitude_whole (h : numeral.IsProper) {text tail : List Char}
    (hrun : Decimal.digitRun text = (numeral.whole, tail)) (htail : ∀ more, tail ≠ '.' :: more)
    (negative : Bool) :
    parseMagnitude negative text = parseExponent negative numeral.whole [] tail := by
  rw [parseMagnitude, hrun]
  split
  · next hnone => exact absurd (Prod.mk.inj hnone).1 h.whole_ne
  · next hzero => exact absurd (Prod.mk.inj hzero).1 (h.leading _ _)
  · next hpoint => exact absurd (Prod.mk.inj hpoint).2 (htail _)
  · next hwhole =>
    obtain ⟨rfl, rfl⟩ := Prod.mk.inj hwhole
    rfl

theorem IsProper.parseMagnitude_fraction (h : numeral.IsProper) {text tail after : List Char}
    (hrun : Decimal.digitRun text = (numeral.whole, '.' :: tail))
    (hfraction : Decimal.digitRun tail = (numeral.fraction, after))
    (hne : numeral.fraction ≠ []) (negative : Bool) :
    parseMagnitude negative text =
      parseExponent negative numeral.whole numeral.fraction after := by
  rw [parseMagnitude, hrun]
  split
  · next hnone => exact absurd (Prod.mk.inj hnone).1 h.whole_ne
  · next hzero => exact absurd (Prod.mk.inj hzero).1 (h.leading _ _)
  · next hpoint =>
    obtain ⟨rfl, htail⟩ := Prod.mk.inj hpoint
    obtain ⟨-, rfl⟩ := List.cons.inj htail
    rw [hfraction]
    split
    · next hempty => exact absurd (Prod.mk.inj hempty).1 hne
    · next hdigits =>
      obtain ⟨rfl, rfl⟩ := Prod.mk.inj hdigits
      rfl
  · next hother hwhole => exact absurd (Prod.mk.inj hwhole).2.symm (hother tail)

/-- A numeral is read to its end, as the number that it stands for. -/
theorem IsProper.parseMagnitude_text (h : numeral.IsProper) (hrest : EndsNumeral rest)
    (negative : Bool) :
    parseMagnitude negative (numeral.text ++ rest) =
      .ok ((numeral.decimal negative).toNumber, rest) := by
  have hpower := exponent?_powerText_append hrest numeral.power?
  have hend := head?_powerText_append hrest numeral.power?
  have hread : parseMagnitude negative (numeral.text ++ rest) =
      parseExponent negative numeral.whole numeral.fraction
        (powerText numeral.power? ++ rest) := by
    rw [text, List.append_assoc, List.append_assoc]
    by_cases hfraction : numeral.fraction = []
    · rw [hfraction]
      apply h.parseMagnitude_whole (digitRun_append h.isDigit_whole fun c hc => (hend c hc).1)
      intro more hmore
      exact (hend '.' (by rw [hmore]; rfl)).2 rfl
    · rw [fractionText, if_neg (by simpa using hfraction)]
      refine h.parseMagnitude_fraction (digitRun_append h.isDigit_whole ?_)
        (digitRun_append h.isDigit_fraction fun c hc => (hend c hc).1) hfraction negative
      rintro c ⟨⟩
      decide
  rw [hread, parseExponent, hpower]
  rfl

/-- What the digits stand for without a sign, before they are rounded. -/
def value (numeral : Numeral) : Rat :=
  (numeral.decimal false).digits * 10 ^ (numeral.decimal false).scale

theorem value_mk (whole fraction : List Char) (power? : Option Int) :
    value ⟨whole, fraction, power?⟩ =
      Nat.ofDigitChars 10 (whole ++ fraction) 0 * 10 ^ (power?.getD 0 - fraction.length) := rfl

theorem toNumber_decimal {result : Rat} (h : Number.nearest numeral.value = .finite result)
    (negative : Bool) :
    (numeral.decimal negative).toNumber = .finite (if negative then -result else result) :=
  Decimal.toNumber_eq h negative

theorem isProper_cons {c : Char} {others fraction : List Char} (hzero : c ≠ '0')
    (hdigits : ∀ d ∈ c :: (others ++ fraction), d.isDigit = true) (power? : Option Int) :
    IsProper ⟨c :: others, fraction, power?⟩ where
  whole_ne := List.cons_ne_nil c others
  leading _ _ h := hzero (List.cons.inj h).1
  isDigit_whole d hd := hdigits d (List.mem_append_left fraction hd)
  isDigit_fraction d hd := hdigits d (List.mem_cons_of_mem c (List.mem_append_right others hd))

end Numeral

/-! ### Texts of finite numbers -/

theorem isProper_decimalDigits (n : Nat) : Numeral.IsProper ⟨decimalDigits n, [], none⟩ where
  whole_ne := Nat.toDigits_ne_nil
  leading digit more h := by cases decimalDigits_zero_cons h
  isDigit_whole _ hc := isDigit_of_mem_decimalDigits hc
  isDigit_fraction _ hc := nomatch hc

theorem exists_decimalDigits_of_ne_zero {n : Nat} (hn : n ≠ 0) :
    ∃ c others, decimalDigits n = c :: others ∧ c ≠ '0' ∧
      (∀ d ∈ c :: others, d.isDigit = true) ∧ Nat.ofDigitChars 10 (c :: others) 0 = n := by
  obtain ⟨c, others, hdigits, -⟩ := exists_decimalDigits_eq_cons n
  have hvalue : Nat.ofDigitChars 10 (decimalDigits n) 0 = n := Nat.ofDigitChars_ten_toDigits
  refine ⟨c, others, hdigits, ?_, ?_, hdigits ▸ hvalue⟩
  · rintro rfl
    obtain rfl := decimalDigits_zero_cons hdigits
    rw [hdigits] at hvalue
    exact hn hvalue.symm
  · rw [← hdigits]
    intro d hd
    exact isDigit_of_mem_decimalDigits hd

/-- Each of the four layouts is a numeral, as the first digit is no zero, and stands for the digits on
their scale. -/
theorem exists_numeral_layout {digits : Nat} (hdigits : digits ≠ 0) (exponent : Int) :
    ∃ numeral : Numeral, numeral.IsProper ∧ numeral.text = Number.layout digits exponent ∧
      numeral.value = digits * 10 ^ exponent := by
  obtain ⟨c, others, hds, hzero, hall, hvalue⟩ := exists_decimalDigits_of_ne_zero hdigits
  have hzeros : ∀ k, ∀ d ∈ List.replicate k '0', d.isDigit = true := by
    intro k d hd
    rw [List.eq_of_mem_replicate hd]
    decide
  unfold Number.layout
  simp only [hds, Bool.and_eq_true, decide_eq_true_eq, List.length_cons]
  split
  · next hinteger =>
    -- An integer, with zeros for the digits that it does not have.
    refine ⟨⟨c :: (others ++ List.replicate exponent.toNat '0'), [], none⟩,
      Numeral.isProper_cons hzero ?_ none, List.append_nil _, ?_⟩
    · intro d hd
      rw [List.append_nil, ← List.cons_append, List.mem_append] at hd
      exact hd.elim (hall d) (hzeros _ d)
    · obtain ⟨k, rfl⟩ := Int.eq_ofNat_of_zero_le hinteger.1
      rw [Numeral.value_mk, List.append_nil, ← List.cons_append, Nat.ofDigitChars_append, hvalue,
        Nat.ofDigitChars_replicate_zero]
      simp [mul_comm]
  · split
    · -- The point stands between two digits.
      obtain ⟨k, hk⟩ : ∃ k, (((others.length + 1 : Nat) : Int) + exponent).toNat = k + 1 :=
        ⟨(((others.length + 1 : Nat) : Int) + exponent).toNat - 1, by omega⟩
      have hbehind : others.drop k ≠ [] := by
        rw [ne_eq, List.drop_eq_nil_iff]
        omega
      rw [hk, List.take_succ_cons, List.drop_succ_cons]
      refine ⟨⟨c :: others.take k, others.drop k, none⟩, Numeral.isProper_cons hzero ?_ none, ?_, ?_⟩
      · rwa [List.take_append_drop]
      · simp [Numeral.text, Numeral.fractionText, Numeral.powerText, hbehind]
      · have hscale : (0 : Int) - (others.drop k).length = exponent := by
          rw [List.length_drop]
          omega
        rw [Numeral.value_mk, List.cons_append, List.take_append_drop, hvalue, Option.getD_none, hscale]
    · split
      · -- The point stands in front of all digits.
        refine ⟨⟨['0'], List.replicate (-(((others.length + 1 : Nat) : Int) + exponent)).toNat '0' ++
          (c :: others), none⟩, ⟨List.cons_ne_nil _ _, ?_, ?_, ?_⟩, ?_, ?_⟩
        · intro digit more h
          cases h
        · intro d hd
          rw [List.mem_singleton.1 hd]
          decide
        · intro d hd
          exact (List.mem_append.1 hd).elim (hzeros _ d) (hall d)
        · simp [Numeral.text, Numeral.fractionText, Numeral.powerText]
        · rw [Numeral.value_mk, ← List.append_assoc, ← List.replicate_one, List.replicate_append_replicate,
            Nat.ofDigitChars_append, Nat.ofDigitChars_replicate_zero, Nat.mul_zero, hvalue, Option.getD_none,
            List.length_append, List.length_replicate, List.length_cons]
          congr 2
          omega
      · refine ⟨⟨[c], others, some (((others.length + 1 : Nat) : Int) + exponent - 1)⟩,
          Numeral.isProper_cons hzero ?_ _, ?_, ?_⟩
        · exact hall
        · cases others <;> simp [Numeral.text, Numeral.fractionText, Numeral.powerText]
        · rw [Numeral.value_mk, List.singleton_append, hvalue, Option.getD_some]
          congr 2
          omega

/-! ### The digits of a number -/

theorem readingBack?_ne_zero {value : Rat} {exponent : Int} {digits : Nat} (hvalue : value ≠ 0)
    (h : Number.readingBack? value exponent = some digits) : digits ≠ 0 := by
  rintro rfl
  have hread := Number.nearest_of_readingBack? h
  rw [Nat.cast_zero, zero_mul] at hread
  exact hvalue (Number.finite.inj hread).symm

theorem trimZeros_ne_zero {digits : Nat} (hdigits : digits ≠ 0) (fuel : Nat) (exponent : Int) :
    (Number.trimZeros fuel digits exponent).1 ≠ 0 := by
  intro hzero
  have hvalue := Number.trimZeros_eq fuel digits exponent
  rw [hzero, Nat.cast_zero, zero_mul] at hvalue
  have hpositive : (0 : Rat) < digits * 10 ^ exponent := by positivity
  exact hpositive.ne hvalue

theorem shortest_ne_zero {value : Rat} (hvalue : value ≠ 0) : (Number.shortest value).1 ≠ 0 := by
  unfold Number.shortest
  dsimp only
  split
  · next hfound =>
    obtain ⟨k, -, hk⟩ := List.exists_of_findSome?_eq_some hfound
    obtain ⟨digits, hread, hpair⟩ := Option.map_eq_some_iff.1 hk
    cases hpair
    exact trimZeros_ne_zero (readingBack?_ne_zero hvalue hread) _ _
  · have hnum : value.num.natAbs ≠ 0 := by simpa using hvalue
    exact Nat.mul_ne_zero hnum (Nat.pow_pos (by decide)).ne'

/-- The text without a sign is a numeral. That of a number of the format stands for what is rounded to
it. -/
theorem exists_numeral_magnitudeText (value : Rat) :
    ∃ numeral : Numeral, numeral.IsProper ∧ numeral.text = Number.magnitudeText value ∧
      (0 ≤ value → Number.IsBinary64 value → Number.nearest numeral.value = .finite value) := by
  unfold Number.magnitudeText
  split
  · next hsmall =>
    refine ⟨_, isProper_decimalDigits value.num.natAbs, List.append_nil _, fun hsign hformat => ?_⟩
    simp only [Bool.and_eq_true, decide_eq_true_eq] at hsmall
    have hvalue : Numeral.value ⟨decimalDigits value.num.natAbs, [], none⟩ = value := by
      rw [Numeral.value_mk, List.append_nil, decimalDigits, Nat.ofDigitChars_ten_toDigits,
        Number.cast_natAbs_num hsign, hsmall.1]
      simp
    rw [hvalue, Number.nearest_of_isBinary64 hformat]
  · next hlarge =>
    -- Zero is written with all its digits.
    have hvalue : value ≠ 0 := by
      rintro rfl
      exact hlarge (by decide)
    obtain ⟨numeral, hproper, htext, hdigits⟩ :=
      exists_numeral_layout (shortest_ne_zero hvalue) (Number.shortest value).2
    refine ⟨numeral, hproper, htext, fun hsign hformat => ?_⟩
    rw [hdigits, Number.nearest_shortest (lt_of_le_of_ne hsign hvalue.symm) hformat]

/-! ### Reading the text of a number -/

/-- What the text of a number is read as, wherever a numeral may end. -/
structure NumberReadsAs (value : Number) (result : Json) : Prop where
  isPlain : ∀ c ∈ numberText value, c ∉ [' ', '\n', '\t', '\r', ']']
  parse : ∀ (fuel : Nat) {rest : List Char}, EndsNumeral rest →
    parseValue (fuel + 1) (numberText value ++ rest) = .ok (result, rest)

theorem NumberReadsAs.text_ne {value : Number} {result : Json} (h : NumberReadsAs value result) :
    numberText value ≠ [] := by
  intro hempty
  have hread := h.parse 0 endsNumeral_nil
  rw [hempty] at hread
  cases hread

theorem not_mem_of_isDigit {c : Char} (hc : c.isDigit = true ∨ c ∈ ['.', 'e', '-', '+']) :
    c ∉ [' ', '\n', '\t', '\r', ']'] := by
  intro hmem
  simp only [List.mem_cons, List.not_mem_nil, or_false] at hmem
  rcases hmem with rfl | rfl | rfl | rfl | rfl
  all_goals exact absurd hc (by decide)

theorem parseValue_of_isDigit {c : Char} (hc : c.isDigit = true ∨ c = '-') (text : List Char)
    (fuel : Nat) : parseValue (fuel + 1) (c :: text) = (parseNumber (c :: text)).map .number := by
  have hfirst : ∀ d more, c :: text = d :: more → d.isDigit = true ∨ d = '-' := by
    rintro d more ⟨⟩
    exact hc
  rw [parseValue]
  all_goals exact fun more h => absurd (hfirst _ more h) (by decide)

theorem parseNumber_of_isDigit {c : Char} (hc : c.isDigit = true) (text : List Char) :
    parseNumber (c :: text) = parseMagnitude false (c :: text) := by
  unfold parseNumber
  split
  · next hminus =>
    obtain ⟨rfl, -⟩ := List.cons.inj hminus
    exact absurd hc (by decide)
  · rfl

variable {numeral : Numeral} {value : Number}

theorem Numeral.IsProper.numberReadsAs (h : numeral.IsProper)
    (htext : numberText value = numeral.text) :
    NumberReadsAs value (.number (numeral.decimal false).toNumber) where
  isPlain c hc := by
    rw [htext] at hc
    exact not_mem_of_isDigit (h.isDigit_of_mem_text hc)
  parse fuel rest hrest := by
    have hread := h.parseMagnitude_text hrest false
    obtain ⟨c, others, hcons, hc⟩ := h.exists_text_eq_cons
    rw [htext]
    rw [hcons, List.cons_append] at hread ⊢
    rw [parseValue_of_isDigit (.inl hc), parseNumber_of_isDigit hc, hread]
    rfl

theorem Numeral.IsProper.numberReadsAs_minus (h : numeral.IsProper)
    (htext : numberText value = '-' :: numeral.text) :
    NumberReadsAs value (.number (numeral.decimal true).toNumber) where
  isPlain c hc := by
    rw [htext] at hc
    apply not_mem_of_isDigit
    rcases List.mem_cons.1 hc with rfl | hmem
    · exact .inr (by decide)
    · exact h.isDigit_of_mem_text hmem
  parse fuel rest hrest := by
    rw [htext, List.cons_append, parseValue_of_isDigit (.inr rfl), parseNumber,
      h.parseMagnitude_text hrest]
    rfl

theorem exists_numberReadsAs (value : Number) : ∃ result, NumberReadsAs value result := by
  cases value with
  | infinite negative =>
    refine ⟨.null, ⟨?_, fun _ _ _ => rfl⟩⟩
    show ∀ c ∈ ['n', 'u', 'l', 'l'], c ∉ [' ', '\n', '\t', '\r', ']']
    simp
  | finite value =>
    by_cases hsign : value < 0
    · obtain ⟨numeral, hproper, htext, -⟩ := exists_numeral_magnitudeText (-value)
      refine ⟨_, hproper.numberReadsAs_minus ?_⟩
      rw [numberText, Number.toText, if_pos hsign, htext]
    · obtain ⟨numeral, hproper, htext, -⟩ := exists_numeral_magnitudeText value
      refine ⟨_, hproper.numberReadsAs ?_⟩
      rw [numberText, Number.toText, if_neg hsign, htext]

/-- A number of the format reads back as itself. -/
theorem numberReadsAs_of_isBinary64 {value : Rat} (h : Number.IsBinary64 value) :
    NumberReadsAs (.finite value) (.number (.finite value)) := by
  by_cases hsign : value < 0
  · obtain ⟨numeral, hproper, htext, hvalue⟩ := exists_numeral_magnitudeText (-value)
    have hminus : numberText (.finite value) = '-' :: numeral.text := by
      rw [numberText, Number.toText, if_pos hsign, htext]
    have hread := hproper.numberReadsAs_minus hminus
    rwa [Numeral.toNumber_decimal (hvalue (neg_nonneg.2 hsign.le) h.neg), if_pos rfl, neg_neg] at hread
  · obtain ⟨numeral, hproper, htext, hvalue⟩ := exists_numeral_magnitudeText value
    have hplain : numberText (.finite value) = numeral.text := by
      rw [numberText, Number.toText, if_neg hsign, htext]
    have hread := hproper.numberReadsAs hplain
    rwa [Numeral.toNumber_decimal (hvalue (not_lt.1 hsign) h), if_neg Bool.false_ne_true] at hread

/-- A count within the exact range is a number of the format. -/
theorem numberReadsAs_ofNat {n : Nat} (hn : n ≤ Number.maxSafe) :
    NumberReadsAs (.ofNat n) (.number (.ofNat n)) :=
  numberReadsAs_of_isBinary64 (Number.isRepresentable_of_le hn).isBinary64

/-- The text of a number is made of visible characters of ASCII. -/
theorem toNat_of_mem_numberText {value : Number} {c : Char} (hc : c ∈ numberText value) :
    0x20 ≤ c.toNat ∧ c.toNat < 0x80 := by
  have hnumeral {numeral : Numeral} (hproper : numeral.IsProper) (hmem : c ∈ numeral.text) :
      0x20 ≤ c.toNat ∧ c.toNat < 0x80 := by
    rcases hproper.isDigit_of_mem_text hmem with hdigit | hother
    · simp only [Char.isDigit, Bool.and_eq_true, decide_eq_true_eq] at hdigit
      have hlow : '0'.toNat ≤ c.toNat := UInt32.le_iff_toNat_le.1 hdigit.1
      have hhigh : c.toNat ≤ '9'.toNat := UInt32.le_iff_toNat_le.1 hdigit.2
      exact ⟨le_trans (by decide) hlow, lt_of_le_of_lt hhigh (by decide)⟩
    · simp only [List.mem_cons, List.not_mem_nil, or_false] at hother
      rcases hother with rfl | rfl | rfl | rfl <;> decide
  cases value with
  | infinite negative =>
    have hword : c ∈ ['n', 'u', 'l', 'l'] := hc
    simp only [List.mem_cons, List.not_mem_nil, or_false] at hword
    rcases hword with rfl | rfl | rfl | rfl <;> decide
  | finite value =>
    rw [numberText, Number.toText] at hc
    split at hc
    · obtain ⟨numeral, hproper, htext, -⟩ := exists_numeral_magnitudeText (-value)
      rcases List.mem_cons.1 hc with rfl | hmem
      · decide
      · exact hnumeral hproper (htext ▸ hmem)
    · obtain ⟨numeral, hproper, htext, -⟩ := exists_numeral_magnitudeText value
      exact hnumeral hproper (htext ▸ hc)

end CallGraph.Json
