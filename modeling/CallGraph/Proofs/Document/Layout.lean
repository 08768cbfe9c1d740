import CallGraph.Document.Render
import CallGraph.Proofs.Json.Numerals
import CallGraph.Proofs.Text.Pieces

/-!
# The layout of written documents

A document is put together from entries that are printed on their own and then moved in. What comes out is
the text of one JSON object printed at once: strings have their line breaks escaped, so that every line
break of printed JSON is one between its lines, and moving in the lines of a value is the same as printing
it further in.
-/

namespace CallGraph

namespace Json

/-! ### What printed values are made of -/

theorem newline_not_mem_quote (text : String) : '\n' ∉ quote text :=
  fun hmem => absurd (le_toNat_of_mem_quote hmem) (by decide)

theorem newline_not_mem_numberText (value : Number) : '\n' ∉ numberText value :=
  fun hmem => absurd (toNat_of_mem_numberText hmem).1 (by decide)

/-- The characters of a text that have no place in ASCII, in their order. -/
def beyondAscii (text : List Char) : List Char :=
  text.filter fun c => 0x80 ≤ c.toNat

@[simp] theorem beyondAscii_append (left right : List Char) :
    beyondAscii (left ++ right) = beyondAscii left ++ beyondAscii right :=
  List.filter_append left right

theorem beyondAscii_cons {c : Char} (hc : c.toNat < 0x80) (text : List Char) :
    beyondAscii (c :: text) = beyondAscii text :=
  List.filter_cons_of_neg (by simpa using hc)

theorem beyondAscii_eq_nil {text : List Char} (h : ∀ c ∈ text, c.toNat < 0x80) :
    beyondAscii text = [] :=
  List.filter_eq_nil_iff.2 fun c hc => by simpa using h c hc

theorem beyondAscii_newline (margin : Nat) : beyondAscii (newline margin) = [] := by
  refine beyondAscii_eq_nil fun c hc => ?_
  rcases List.mem_cons.1 hc with rfl | hspace
  · decide
  · rw [List.eq_of_mem_replicate hspace]
    decide

theorem beyondAscii_numberText (value : Number) : beyondAscii (numberText value) = [] :=
  beyondAscii_eq_nil fun _ hc => (toNat_of_mem_numberText hc).2

theorem beyondAscii_escape (c : Char) : beyondAscii (escape c) = beyondAscii [c] := by
  have hdigits : ∀ n < 0x20,
      beyondAscii ['\\', 'u', '0', '0', Nat.digitChar (n / 16), Nat.digitChar (n % 16)] = [] := by
    decide
  unfold escape
  split_ifs with h h h h h h h hcontrol
  iterate 7 subst h; decide
  · rw [hdigits _ hcontrol, beyondAscii_cons (by omega)]
    rfl
  · rfl

theorem beyondAscii_quote (text : String) : beyondAscii (quote text) = beyondAscii text.toList := by
  have hinside : beyondAscii (text.toList.flatMap escape) = beyondAscii text.toList := by
    induction text.toList with
    | nil => rfl
    | cons c rest ih =>
      rw [List.flatMap_cons, beyondAscii_append, beyondAscii_escape, ih, ← beyondAscii_append,
        List.singleton_append]
  rw [quote, beyondAscii_cons (by decide), beyondAscii_append, hinside, beyondAscii_cons (by decide)]
  exact List.append_nil _

theorem beyondAscii_prettyItems_strings (margin : Nat) (texts : List String) :
    beyondAscii (prettyItems margin (texts.map .string)) =
      texts.flatMap fun text => beyondAscii text.toList := by
  induction texts with
  | nil =>
    rw [List.map_nil, prettyItems, beyondAscii_append, beyondAscii_newline]
    rfl
  | cons text rest ih =>
    rw [List.map_cons, prettyItems, beyondAscii_cons (by decide)]
    simp only [beyondAscii_append, beyondAscii_newline, prettyChars, beyondAscii_quote, ih,
      List.flatMap_cons, List.nil_append]

theorem beyondAscii_prettyChars_strings (margin : Nat) (texts : List String) :
    beyondAscii (prettyChars margin (.strings texts)) =
      texts.flatMap fun text => beyondAscii text.toList := by
  cases texts with
  | nil => rfl
  | cons text rest =>
    rw [strings, List.map_cons, prettyChars, beyondAscii_cons (by decide)]
    simp only [beyondAscii_append, beyondAscii_newline, prettyChars, beyondAscii_quote,
      beyondAscii_prettyItems_strings, List.flatMap_cons, List.nil_append]

end Json

namespace Document

/-! ### Moving in the lines of a value -/

@[simp] theorem indentTail_append (left right : List Char) :
    indentTail (left ++ right) = indentTail left ++ indentTail right :=
  List.flatMap_append

theorem indentTail_cons {c : Char} (hc : c ≠ '\n') (text : List Char) :
    indentTail (c :: text) = c :: indentTail text := by
  rw [indentTail, List.flatMap_cons, if_neg hc]
  rfl

theorem indentTail_eq_self {text : List Char} (h : '\n' ∉ text) : indentTail text = text := by
  induction text with
  | nil => rfl
  | cons c rest ih =>
    rw [List.mem_cons, not_or] at h
    rw [indentTail_cons (Ne.symm h.1), ih h.2]

theorem indentTail_newline (margin : Nat) :
    indentTail (Json.newline margin) = Json.newline (margin + 2) := by
  have hspaces : indentTail (List.replicate margin ' ') = List.replicate margin ' ' :=
    indentTail_eq_self (by simp)
  have htail : indentTail ('\n' :: List.replicate margin ' ') =
      '\n' :: ' ' :: ' ' :: indentTail (List.replicate margin ' ') := rfl
  rw [Json.newline, htail, hspaces]
  rfl

theorem indentTail_colon : indentTail ": ".toList = ": ".toList := rfl

theorem indentTail_quote (text : String) : indentTail (Json.quote text) = Json.quote text :=
  indentTail_eq_self (Json.newline_not_mem_quote text)

mutual

theorem indentTail_prettyChars (margin : Nat) : ∀ value : Json,
    indentTail (Json.prettyChars margin value) = Json.prettyChars (margin + 2) value
  | .null => rfl
  | .bool true => rfl
  | .bool false => rfl
  | .number value => indentTail_eq_self (Json.newline_not_mem_numberText value)
  | .string value => indentTail_quote value
  | .array [] => rfl
  | .array (item :: items) => by
    simp (disch := decide) only [Json.prettyChars, indentTail_cons, indentTail_append,
      indentTail_newline, indentTail_prettyChars (margin + 2) item,
      indentTail_prettyItems margin items]
  | .object [] => rfl
  | .object ((key, value) :: members) => by
    simp (disch := decide) only [Json.prettyChars, indentTail_cons, indentTail_append,
      indentTail_newline, indentTail_quote, indentTail_colon,
      indentTail_prettyChars (margin + 2) value, indentTail_prettyMembers margin members]

theorem indentTail_prettyItems (margin : Nat) : ∀ items : List Json,
    indentTail (Json.prettyItems margin items) = Json.prettyItems (margin + 2) items
  | [] => by
    simp (disch := decide) only [Json.prettyItems, indentTail_append, indentTail_newline]
    rfl
  | item :: items => by
    simp (disch := decide) only [Json.prettyItems, indentTail_cons, indentTail_append,
      indentTail_newline, indentTail_prettyChars (margin + 2) item,
      indentTail_prettyItems margin items]

theorem indentTail_prettyMembers (margin : Nat) : ∀ members : Json.Members,
    indentTail (Json.prettyMembers margin members) = Json.prettyMembers (margin + 2) members
  | [] => by
    simp (disch := decide) only [Json.prettyMembers, indentTail_append, indentTail_newline]
    rfl
  | (key, value) :: members => by
    simp (disch := decide) only [Json.prettyMembers, indentTail_cons, indentTail_append,
      indentTail_newline, indentTail_quote, indentTail_colon,
      indentTail_prettyChars (margin + 2) value, indentTail_prettyMembers margin members]

end

/-! ### The document as one object -/

def memberJson (record : CallRecord) : String × Json :=
  (record.name, (Entry.ofRecord record).toJson)

theorem memberChars_eq (record : CallRecord) :
    memberChars record = ' ' :: ' ' :: (Json.quote record.name ++ ": ".toList ++
      Json.prettyChars 2 (Entry.ofRecord record).toJson) := by
  rw [memberChars, indentTail_prettyChars]

theorem intercalate_memberChars (record : CallRecord) (rest : List CallRecord) :
    [',', '\n'].intercalate ((record :: rest).map memberChars) ++ ['\n', '\x7d'] =
      memberChars record ++ Json.prettyMembers 0 (rest.map memberJson) := by
  induction rest generalizing record with
  | nil =>
    rw [List.map_singleton, List.intercalate_singleton]
    rfl
  | cons next rest ih =>
    rw [List.map_cons, List.map_cons, List.intercalate_cons_cons, List.append_assoc,
      ← List.map_cons, ih, memberChars_eq next]
    simp [Json.prettyMembers, memberJson, Json.newline]

/-- The document is what one JSON object with a member for each record is printed as. -/
theorem renderChars_eq (records : List CallRecord) :
    renderChars records = Json.prettyChars 0 (.object (records.map memberJson)) := by
  cases records with
  | nil => rfl
  | cons record rest =>
    rw [renderChars, List.isEmpty_cons, if_neg Bool.false_ne_true, intercalate_memberChars,
      memberChars_eq]
    simp [Json.prettyChars, memberJson, Json.newline]

/-! ### What stands in the document -/

/-- The texts that a document has of a record. -/
def textsOf (record : CallRecord) : List String :=
  record.name :: record.callers

theorem beyondAscii_memberChars (record : CallRecord) :
    Json.beyondAscii (memberChars record) =
      (textsOf record).flatMap fun text => Json.beyondAscii text.toList := by
  have hcolon : Json.beyondAscii ": ".toList = [] := rfl
  have hclose : Json.beyondAscii ['\x7d'] = [] := rfl
  have hcount : Json.beyondAscii "CallCount".toList = [] := by decide
  have husages : Json.beyondAscii "Usages".toList = [] := by decide
  simp (disch := decide) only [memberChars_eq, Entry.toJson, Entry.ofRecord, Json.prettyChars,
    Json.prettyMembers, Json.beyondAscii_append, Json.beyondAscii_cons, Json.beyondAscii_quote,
    Json.beyondAscii_newline, Json.beyondAscii_numberText, Json.beyondAscii_prettyChars_strings,
    hcolon, hclose, hcount, husages, List.nil_append, List.append_nil, textsOf, List.flatMap_cons]

theorem beyondAscii_intercalate (members : List (List Char)) :
    Json.beyondAscii ([',', '\n'].intercalate members) = members.flatMap Json.beyondAscii := by
  have hseparator : Json.beyondAscii [',', '\n'] = [] := rfl
  induction members with
  | nil => rfl
  | cons member rest ih =>
    cases rest with
    | nil => simp
    | cons next rest =>
      rw [List.intercalate_cons_cons, Json.beyondAscii_append, Json.beyondAscii_append, hseparator,
        ih, List.append_nil]
      rfl

/-- Characters beyond ASCII are written as they are, and none stands in the document but those of names. -/
theorem beyondAscii_renderChars (records : List CallRecord) :
    Json.beyondAscii (renderChars records) =
      (records.flatMap textsOf).flatMap fun text => Json.beyondAscii text.toList := by
  rw [renderChars]
  split
  · next hempty =>
    rw [List.isEmpty_iff.1 hempty]
    rfl
  · have hclose : Json.beyondAscii ['\n', '\x7d'] = [] := rfl
    rw [Json.beyondAscii_cons (by decide), Json.beyondAscii_cons (by decide),
      Json.beyondAscii_append, beyondAscii_intercalate, hclose, List.append_nil, List.flatMap_map,
      List.flatMap_assoc]
    simp only [beyondAscii_memberChars]

theorem memberChars_infix_renderChars {record : CallRecord} {records : List CallRecord}
    (h : record ∈ records) : memberChars record <:+: renderChars records := by
  have hmember : memberChars record <:+: [',', '\n'].intercalate (records.map memberChars) :=
    Text.infix_intercalate (List.mem_map_of_mem h) _
  have hclosed := (List.prefix_append ([',', '\n'].intercalate (records.map memberChars))
    ['\n', '\x7d']).isInfix
  rw [renderChars, if_neg (by simpa using List.ne_nil_of_mem h)]
  exact (hmember.trans hclosed).trans (List.suffix_append ['\x7b', '\n'] _).isInfix

/-- The member of a record without callers has a line for the empty list of usages. -/
theorem memberChars_of_callers_eq_nil {record : CallRecord} (h : record.callers = []) :
    memberChars record = "  ".toList ++ Json.quote record.name ++
      ": \x7b\n    \"CallCount\": ".toList ++ Json.numberText record.callCount ++
        ",\n    \"Usages\": []\n  \x7d".toList := by
  have hquoted : Json.quote "CallCount" = "\"CallCount\"".toList ∧
      Json.quote "Usages" = "\"Usages\"".toList := by decide
  rw [memberChars_eq, Entry.toJson, Entry.ofRecord, h]
  simp [Json.prettyChars, Json.prettyMembers, Json.strings, Json.newline, hquoted]

/-- A document that is put together member by member is the text of one object with its members in the
order of the graph. Strings come through unchanged, what is empty takes no lines of its own, and characters
beyond ASCII stand in the document just as they stand in names. -/
theorem render_eq_pretty (graph : Graph) :
    render graph = Json.pretty (.object (graph.records.map memberJson)) ∧
      (∀ text, indentTail (Json.quote text) = Json.quote text) ∧
      render Graph.empty = "\x7b\x7d" ∧
      (∀ record ∈ graph.records, record.callers = [] →
        "  ".toList ++ Json.quote record.name ++ ": \x7b\n    \"CallCount\": ".toList ++
          Json.numberText record.callCount ++ ",\n    \"Usages\": []\n  \x7d".toList <:+:
            (render graph).toList) ∧
      Json.beyondAscii (render graph).toList =
        (graph.records.flatMap textsOf).flatMap fun text => Json.beyondAscii text.toList := by
  have hchars : (render graph).toList = renderChars graph.records := String.toList_ofList
  refine ⟨congrArg String.ofList (renderChars_eq graph.records), indentTail_quote, rfl, ?_, ?_⟩
  · intro record hrecord hcallers
    rw [hchars, ← memberChars_of_callers_eq_nil hcallers]
    exact memberChars_infix_renderChars hrecord
  · rw [hchars, beyondAscii_renderChars]

/-- A graph with a line break and letters beyond ASCII in its names, and a record without callers. -/
def accented : Graph where
  records :=
    [⟨"Spiel::Gr\u00f6\u00dfe\n(void)", .ofNat 1, ["Spiel::Men\u00fc\n  (void)"]⟩,
      ⟨"42", .finite (1 / 2), []⟩]
  nodup := by decide

theorem render_eq_pretty_accented :
    ⟨"42", .finite (1 / 2), []⟩ ∈ accented.records ∧
      "  \"42\": \x7b\n    \"CallCount\": 0.5,\n    \"Usages\": []\n  \x7d".toList <:+:
        (render accented).toList ∧
      Json.beyondAscii (render accented).toList = "\u00f6\u00df\u00fc".toList := by
  have hmem : ⟨"42", .finite (1 / 2), []⟩ ∈ accented.records := by simp [accented]
  obtain ⟨-, -, -, hempty, hbeyond⟩ := render_eq_pretty accented
  refine ⟨hmem, ?_, ?_⟩
  · have hline := hempty _ hmem rfl
    have htext : "  ".toList ++ Json.quote "42" ++ ": \x7b\n    \"CallCount\": ".toList ++
        Json.numberText (.finite (1 / 2)) ++ ",\n    \"Usages\": []\n  \x7d".toList =
          "  \"42\": \x7b\n    \"CallCount\": 0.5,\n    \"Usages\": []\n  \x7d".toList := by
      decide +kernel
    rwa [htext] at hline
  · rw [hbeyond]
    decide +kernel

end Document

end CallGraph
