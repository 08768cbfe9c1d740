import CallGraph.Proofs.Schema.Meaning
import CallGraph.Proofs.Snapshot.Addresses
import CallGraph.Snapshot.Reading
import Mathlib.Data.List.Nodup

/-!
# The documents that are snapshots

What an exporter may write is said here without the check: which values stand for a function, a reference and a
table, and which document for a snapshot. Reading accepts these documents and no others, and gives back what they
stand for. The one test that looks at several functions together, that no two start at one address, is kept apart,
since a document that fails nothing else is answered by its repeated starts alone.
-/

namespace CallGraph

open Schema Schema.Checked

/-! ### What may be written -/

namespace Export

structure HasFunction (members : Json.Members) (entry : FunctionEntry) : Prop where
  start : Has "start" IsAddress members entry.start
  stop : MayHave "end" none (fun value stop? => ∃ stop, IsAddress value stop ∧ stop? = some stop)
    members entry.stop?
  start_lt : ∀ stop, entry.stop? = some stop → entry.start < stop
  name : MayHave "name" none IsText? members entry.name?
  code : MayHave "code" true (fun value code => value = .bool code) members entry.code

structure HasReference (members : Json.Members) (reference : Reference) : Prop where
  source : Has "from" IsAddress members reference.source
  target : Has "to" IsAddress members reference.target

structure HasSnapshot (members : Json.Members) (snapshot : Snapshot) : Prop where
  functions : Has "functions" (IsArray (IsObject HasFunction)) members snapshot.functions
  references : MayHave "references" [] (IsArray (IsObject HasReference)) members snapshot.references
  tables : MayHave "demangled" [] (IsTable (IsTable IsText?)) members snapshot.tables

/-- A document whose functions, references and tables are right, each on its own. -/
def IsSnapshot : Json → Snapshot → Prop :=
  IsObject HasSnapshot

/-- The issue of a function that starts where an earlier one does; it names the first such. -/
def repeatedStart? (starts : List Address) (start : Address) (index : Nat) : Option Issue :=
  let first := starts.idxOf start
  if first < index then
    some ⟨["functions", toString index, "start"], .duplicateStart start.toText first⟩
  else none

def repeatedStarts (starts : List Address) : List Issue :=
  starts.zipIdx.filterMap fun (start, index) => repeatedStart? starts start index

end Export

open Export

/-! ### What the checks accept -/

namespace Location

variable {key : String} {members : Json.Members}

theorem accepts_some_iff {value : Json} {location : Location} :
    (check (some value)).Accepts location ↔
      ∃ address, IsAddress value address ∧ location = ofAddress address := by
  simp [accepts_check_iff]

theorem accepts_field_iff {location : Location} :
    (Check.field key check members).Accepts location ↔
      ∃ address, Has key IsAddress members address ∧ location = ofAddress address := by
  have hnone (result : Location) : ¬ (check none).Accepts result := by simp [accepts_check_iff]
  rw [Check.accepts_field_has_iff hnone fun _ _ => accepts_some_iff]
  constructor
  · rintro ⟨value, hvalue, address, haddress, hlocation⟩
    exact ⟨address, ⟨value, hvalue, haddress⟩, hlocation⟩
  · rintro ⟨address, ⟨value, hvalue, haddress⟩, hlocation⟩
    exact ⟨value, hvalue, address, haddress, hlocation⟩

theorem accepts_field_optional_iff {location? : Option Location} :
    (Check.field key (Check.optional check) members).Accepts location? ↔
      ∃ address?, MayHave key none
        (fun value address? => ∃ address, IsAddress value address ∧ address? = some address)
          members address? ∧ location? = address?.map ofAddress := by
  rw [Check.accepts_field_optional_iff fun _ _ => accepts_some_iff]
  constructor
  · rintro (⟨hnone, rfl⟩ | ⟨value, hvalue, _, ⟨address, haddress, rfl⟩, rfl⟩)
    · exact ⟨none, .inl ⟨hnone, rfl⟩, rfl⟩
    · exact ⟨some address, .inr ⟨value, hvalue, address, haddress, rfl⟩, rfl⟩
  · rintro ⟨_, ⟨hnone, rfl⟩ | ⟨value, hvalue, address, haddress, rfl⟩, rfl⟩
    · exact .inl ⟨hnone, rfl⟩
    · exact .inr ⟨value, hvalue, ofAddress address, ⟨address, haddress, rfl⟩, rfl⟩

end Location

theorem Reference.accepts_check_iff {value : Json} {reference : Reference} :
    (Reference.check (some value)).Accepts reference ↔ IsObject HasReference value reference := by
  refine Check.accepts_object_some_iff fun members result => ?_
  simp only [accepts_seq_iff, accepts_map_iff, Location.accepts_field_iff]
  constructor
  · rintro ⟨_, _, ⟨_, ⟨source, hsource, rfl⟩, rfl⟩, ⟨target, htarget, rfl⟩, rfl⟩
    exact ⟨by simpa using hsource, by simpa using htarget⟩
  · rintro ⟨hsource, htarget⟩
    exact ⟨_, _, ⟨_, ⟨_, hsource, rfl⟩, rfl⟩, ⟨_, htarget, rfl⟩, by simp⟩

namespace FunctionDraft

variable {members : Json.Members}

theorem endIssues_eq_nil_iff {draft : FunctionDraft} {start : Address} {stop? : Option Address}
    (hstart : draft.start = .ofAddress start) (hstop : draft.stop? = stop?.map .ofAddress) :
    draft.endIssues = [] ↔ ∀ stop, stop? = some stop → start < stop := by
  cases stop? with
  | none => simp [endIssues, hstop]
  | some stop => simp [endIssues, hstart, hstop]

/-- A draft still tells a name that is `null` from one that is not there; for the function both are none. -/
theorem mayHave_name_iff {name? : Option String} :
    MayHave "name" none IsText? members name? ↔
      ∃ given, (Check.field "name" (Check.optional (Check.nullable Check.string)) members).Accepts
        given ∧ given.join = name? := by
  simp only [Check.accepts_field_optional_iff fun _ _ => Check.accepts_nullable_string_iff]
  constructor
  · rintro (⟨hnone, rfl⟩ | ⟨value, hvalue, htext⟩)
    · exact ⟨none, .inl ⟨hnone, rfl⟩, rfl⟩
    · exact ⟨some name?, .inr ⟨value, hvalue, name?, htext, rfl⟩, rfl⟩
  · rintro ⟨_, ⟨hnone, rfl⟩ | ⟨value, hvalue, text?, htext, rfl⟩, rfl⟩
    · exact .inl ⟨hnone, rfl⟩
    · exact .inr ⟨value, hvalue, htext⟩

theorem mayHave_code_iff {code : Bool} :
    MayHave "code" true (fun value code => value = .bool code) members code ↔
      (Check.field "code" (Check.withDefault true Check.bool) members).Accepts code :=
  (Check.accepts_field_withDefault_iff fun value result => by simp).symm

/-- In a draft that is accepted, no start is left that is only a text. -/
theorem start_of_accepts {value : Option Json} {draft : FunctionDraft}
    (h : (check value).Accepts draft) : draft.start = .ofAddress draft.toEntry.start := by
  obtain ⟨members, -, hmembers⟩ := Check.accepts_object_iff.1 (accepts_refine_iff.1 h).1
  simp only [accepts_seq_iff, accepts_map_iff, Location.accepts_field_iff] at hmembers
  obtain ⟨_, code, ⟨_, name?, ⟨_, stop?, ⟨_, ⟨start, -, rfl⟩, rfl⟩, -, rfl⟩, -, rfl⟩, -, rfl⟩ :=
    hmembers
  simp [toEntry]

/-- What stands for a function is what leads to a draft of it. -/
theorem isObject_hasFunction_iff {value : Json} {entry : FunctionEntry} :
    IsObject HasFunction value entry ↔
      ∃ draft, (check (some value)).Accepts draft ∧ draft.toEntry = entry := by
  constructor
  · rintro ⟨members, rfl, hentry⟩
    obtain ⟨name?, hname, hjoin⟩ := mayHave_name_iff.1 hentry.name
    let draft : FunctionDraft :=
      ⟨.ofAddress entry.start, entry.stop?.map .ofAddress, name?, entry.code⟩
    have hend : draft.endIssues = [] := (endIssues_eq_nil_iff rfl rfl).2 hentry.start_lt
    have hstop : (entry.stop?.map Location.ofAddress).map Location.toAddress = entry.stop? := by
      cases entry.stop? <;> simp
    refine ⟨draft, accepts_refine_iff.2 ⟨Check.accepts_object_iff.2 ⟨members, rfl, ?_⟩, hend⟩, ?_⟩
    · simp only [accepts_seq_iff, accepts_map_iff]
      exact ⟨_, entry.code, ⟨_, name?, ⟨_, _, ⟨_, Location.accepts_field_iff.2
        ⟨entry.start, hentry.start, rfl⟩, rfl⟩, Location.accepts_field_optional_iff.2
          ⟨entry.stop?, hentry.stop, rfl⟩, rfl⟩, hname, rfl⟩, mayHave_code_iff.1 hentry.code, rfl⟩
    · simp only [toEntry, draft, hstop, hjoin, Location.toAddress_ofAddress]
  · rintro ⟨draft, haccepts, rfl⟩
    obtain ⟨hobject, hend⟩ := accepts_refine_iff.1 haccepts
    obtain ⟨members, hvalue, hmembers⟩ := Check.accepts_object_iff.1 hobject
    simp only [accepts_seq_iff, accepts_map_iff, Location.accepts_field_iff,
      Location.accepts_field_optional_iff] at hmembers
    obtain ⟨_, code, ⟨_, name?, ⟨_, _, ⟨_, ⟨start, hstart, rfl⟩, rfl⟩, ⟨stop?, hstop, rfl⟩, rfl⟩,
      hname, rfl⟩, hcode, rfl⟩ := hmembers
    have hstop? : (stop?.map Location.ofAddress).map Location.toAddress = stop? := by
      cases stop? <;> simp
    refine ⟨members, Option.some.inj hvalue, ?_⟩
    simp only [toEntry, hstop?, Location.toAddress_ofAddress]
    exact ⟨hstart, hstop, (endIssues_eq_nil_iff rfl rfl).1 hend,
      mayHave_name_iff.2 ⟨name?, hname, rfl⟩, mayHave_code_iff.2 hcode⟩

end FunctionDraft

/-! ### Repeated starts -/

/-- The search for repeated starts finds none exactly when all starts differ, from one another and
from those seen before. -/
theorem duplicateStarts_eq_nil_iff {drafts : List FunctionDraft} {seen : List Location}
    {index : Nat} :
    duplicateStarts drafts seen index = [] ↔
      (drafts.map FunctionDraft.start).Nodup ∧ ∀ draft ∈ drafts, draft.start ∉ seen := by
  induction drafts generalizing seen index with
  | nil => simp [duplicateStarts]
  | cons draft rest ih =>
    rw [duplicateStarts]
    split
    · next first hfirst =>
      have hseen : draft.start ∈ seen := by
        obtain ⟨hlt, hfound, -⟩ := List.findIdx?_eq_some_iff_getElem.1 hfirst
        rw [← beq_iff_eq.1 hfound]
        exact List.getElem_mem hlt
      simp [hseen]
    · next hfirst =>
      have hseen : draft.start ∉ seen := by
        intro hmem
        have hnone := List.findIdx?_eq_none_iff.1 hfirst draft.start hmem
        simp at hnone
      rw [ih, List.map_cons, List.nodup_cons, List.mem_map]
      simp only [List.mem_append, List.mem_singleton, not_or, List.forall_mem_cons, hseen,
        not_false_eq_true, true_and, not_exists, not_and, forall_and]
      tauto

theorem findIdx?_ofAddress {before : List Address} {start : Address} :
    (before.map Location.ofAddress).findIdx? (fun seen => seen == Location.ofAddress start) =
      if start ∈ before then some (before.idxOf start) else none := by
  have hsame : (fun seen => seen == Location.ofAddress start) ∘ Location.ofAddress
      = fun seen => seen == start := by
    funext seen
    simp [Location.ofAddress_injective.eq_iff]
  rw [List.findIdx?_map, hsame]
  split
  · next hmem =>
    exact List.findIdx?_eq_some_iff_findIdx_eq.2 ⟨List.idxOf_lt_length_iff.2 hmem, rfl⟩
  · next hnew =>
    refine List.findIdx?_eq_none_iff.2 fun seen hseen => beq_eq_false_iff_ne.2 ?_
    rintro rfl
    exact hnew hseen

/-- The search keeps the starts so far, in which a start is found exactly when it is found further to the left
among all of them. -/
theorem map_duplicateStarts {drafts : List FunctionDraft} (before : List Address)
    {starts : List Address}
    (h : drafts.map FunctionDraft.start = starts.map .ofAddress) :
    (duplicateStarts drafts (before.map .ofAddress) before.length).map
        (fun issue => { issue with path := "functions" :: issue.path }) =
      (starts.zipIdx before.length).filterMap fun (start, index) =>
        repeatedStart? (before ++ starts) start index := by
  induction drafts generalizing before starts with
  | nil =>
    obtain rfl := List.map_eq_nil_iff.1 h.symm
    rfl
  | cons draft rest ih =>
    obtain ⟨start, others, rfl, hstart, hothers⟩ := List.map_eq_cons_iff.1 h.symm
    have hlater := ih (before ++ [start]) hothers.symm
    rw [List.map_append, List.map_singleton, List.length_append, List.length_singleton,
      List.append_assoc, List.singleton_append] at hlater
    rw [duplicateStarts, ← hstart, findIdx?_ofAddress, List.zipIdx_cons, List.filterMap_cons, ← hlater]
    have hdescribe : (Location.ofAddress start).describe = start.toText := rfl
    by_cases hmem : start ∈ before
    · have hfirst : (before ++ start :: others).idxOf start = before.idxOf start :=
        List.idxOf_append_of_mem hmem
      have hlt : before.idxOf start < before.length := List.idxOf_lt_length_iff.2 hmem
      simp [repeatedStart?, hmem, hfirst, hlt, hdescribe]
    · have hfirst : (before ++ start :: others).idxOf start = before.length := by
        rw [List.idxOf_append_of_notMem hmem, List.idxOf_cons_self, Nat.add_zero]
      simp [repeatedStart?, hmem, hfirst]

theorem map_duplicateStarts_nil {drafts : List FunctionDraft} {starts : List Address}
    (h : drafts.map FunctionDraft.start = starts.map .ofAddress) :
    (duplicateStarts drafts [] 0).map (fun issue => { issue with path := "functions" :: issue.path })
      = repeatedStarts starts :=
  map_duplicateStarts [] h

theorem repeatedStarts_eq_nil_iff {starts : List Address} :
    repeatedStarts starts = [] ↔ starts.Nodup := by
  have hstarts : (starts.map fun start => FunctionDraft.mk (.ofAddress start) none none true).map
      FunctionDraft.start = starts.map .ofAddress := by
    rw [List.map_map]
    rfl
  rw [← map_duplicateStarts_nil hstarts, List.map_eq_nil_iff, duplicateStarts_eq_nil_iff, hstarts,
    List.nodup_map_iff Location.ofAddress_injective]
  simp

namespace Snapshot

/-! ### Snapshots -/

theorem isArray_hasFunction_iff {value : Json} {entries : List FunctionEntry} :
    IsArray (IsObject HasFunction) value entries ↔
      ∃ drafts, (Check.array FunctionDraft.check (some value)).Accepts drafts ∧
        drafts.map FunctionDraft.toEntry = entries := by
  have hitem : IsObject HasFunction = fun value entry =>
      ∃ draft, (FunctionDraft.check (some value)).Accepts draft ∧ draft.toEntry = entry := by
    funext value entry
    exact propext FunctionDraft.isObject_hasFunction_iff
  rw [hitem, isArray_map_iff]
  simp only [Check.accepts_array_some_iff fun _ _ => Iff.rfl]

theorem map_start_of_accepts {value : Option Json} {drafts : List FunctionDraft}
    (h : (Check.array FunctionDraft.check value).Accepts drafts) :
    drafts.map FunctionDraft.start =
      ((drafts.map FunctionDraft.toEntry).map FunctionEntry.start).map .ofAddress := by
  rw [List.map_map, List.map_map]
  exact List.map_congr_left
    (Check.forall_mem_of_accepts_array FunctionDraft.start_of_accepts h)

theorem accepts_checkFunctions_iff {value : Json} {entries : List FunctionEntry} :
    (checkFunctions (some value)).Accepts entries ↔
      IsArray (IsObject HasFunction) value entries ∧ (entries.map FunctionEntry.start).Nodup := by
  have hdistinct {drafts : List FunctionDraft}
      (hdrafts : (Check.array FunctionDraft.check (some value)).Accepts drafts) :
      duplicateStarts drafts [] 0 = [] ↔
        ((drafts.map FunctionDraft.toEntry).map FunctionEntry.start).Nodup := by
    rw [← repeatedStarts_eq_nil_iff, ← map_duplicateStarts_nil (map_start_of_accepts hdrafts),
      List.map_eq_nil_iff]
  simp only [checkFunctions, accepts_map_iff, accepts_refine_iff, isArray_hasFunction_iff]
  constructor
  · rintro ⟨drafts, ⟨hdrafts, hnone⟩, rfl⟩
    exact ⟨⟨drafts, hdrafts, rfl⟩, (hdistinct hdrafts).1 hnone⟩
  · rintro ⟨⟨drafts, hdrafts, rfl⟩, hnodup⟩
    exact ⟨drafts, ⟨hdrafts, (hdistinct hdrafts).2 hnodup⟩, rfl⟩

/-- The list of functions is gone on with even where starts repeat, and these are all that is wrong with it. -/
theorem field_checkFunctions_eq {members : Json.Members} {entries : List FunctionEntry}
    (h : Has "functions" (IsArray (IsObject HasFunction)) members entries) :
    Check.field "functions" checkFunctions members =
      ⟨some entries, repeatedStarts (entries.map FunctionEntry.start)⟩ := by
  obtain ⟨value, hvalue, hentries⟩ := h
  obtain ⟨drafts, hdrafts, rfl⟩ := isArray_hasFunction_iff.1 hentries
  rw [Check.field, hvalue, checkFunctions, hdrafts.eq,
    ← map_duplicateStarts_nil (map_start_of_accepts hdrafts)]
  rfl

theorem accepts_field_references_iff {members : Json.Members} {references : List Reference} :
    (Check.field "references" (Check.withDefault [] (Check.array Reference.check)) members).Accepts
        references ↔
      MayHave "references" [] (IsArray (IsObject HasReference)) members references :=
  Check.accepts_field_withDefault_iff fun _ _ =>
    Check.accepts_array_some_iff fun _ _ => Reference.accepts_check_iff

theorem accepts_field_tables_iff {members : Json.Members} {tables : List (String × DemangleTable)} :
    (Check.field "demangled" (Check.withDefault [] (Check.entries checkTable)) members).Accepts
        tables ↔
      MayHave "demangled" [] (IsTable (IsTable IsText?)) members tables :=
  Check.accepts_field_withDefault_iff fun _ _ => Check.accepts_entries_some_iff fun _ _ =>
    Check.accepts_entries_some_iff fun _ _ => Check.accepts_nullable_string_iff

theorem check_of_isSnapshot {json : Json} {snapshot : Snapshot} (h : IsSnapshot json snapshot) :
    check (some json) =
      ⟨some snapshot, repeatedStarts (snapshot.functions.map FunctionEntry.start)⟩ := by
  obtain ⟨members, rfl, hsnapshot⟩ := h
  have hfunctions := field_checkFunctions_eq hsnapshot.functions
  have hreferences := (accepts_field_references_iff.2 hsnapshot.references).eq
  have htables := (accepts_field_tables_iff.2 hsnapshot.tables).eq
  show Snapshot.mk <$> Check.field "functions" checkFunctions members <*> _ <*> _ = _
  rw [hfunctions, hreferences, htables]
  show Checked.mk (some snapshot) (_ ++ [] ++ []) = _
  rw [List.append_nil, List.append_nil]
  rfl

theorem isSnapshot_of_ofJson {json : Json} {snapshot : Snapshot}
    (h : ofJson (some json) = .ok snapshot) :
    IsSnapshot json snapshot ∧ (snapshot.functions.map FunctionEntry.start).Nodup := by
  obtain ⟨members, hjson, hmembers⟩ := Check.accepts_object_iff.1 (toExcept_eq_ok_iff.1 h)
  have hnone (entries : List FunctionEntry) : ¬ (checkFunctions none).Accepts entries := by
    simp [checkFunctions, Check.accepts_array_iff]
  simp only [accepts_seq_iff, accepts_map_iff, accepts_field_references_iff,
    accepts_field_tables_iff,
    Check.accepts_field_has_iff hnone fun _ _ => accepts_checkFunctions_iff] at hmembers
  obtain ⟨_, tables, ⟨_, references, ⟨functions, hfunctions, rfl⟩, hreferences, rfl⟩, htables, rfl⟩ :=
    hmembers
  obtain ⟨value, hvalue, hentries, hnodup⟩ := hfunctions
  exact ⟨⟨members, Option.some.inj hjson, ⟨value, hvalue, hentries⟩, hreferences, htables⟩, hnodup⟩

theorem ofJson_eq_ok_iff {json : Json} {snapshot : Snapshot} :
    ofJson (some json) = .ok snapshot ↔
      IsSnapshot json snapshot ∧ (snapshot.functions.map FunctionEntry.start).Nodup := by
  refine ⟨isSnapshot_of_ofJson, ?_⟩
  rintro ⟨hsnapshot, hnodup⟩
  rw [ofJson, check_of_isSnapshot hsnapshot, repeatedStarts_eq_nil_iff.2 hnodup]
  rfl

/-- Reading accepts exactly the documents that stand for a snapshot whose functions start at different addresses, and
gives the snapshot back; where nothing is wrong but that starts repeat, the answer is the repeated starts. -/
theorem ofJson_exports (json : Json) (snapshot : Snapshot) :
    (ofJson (some json) = .ok snapshot ↔
      IsSnapshot json snapshot ∧ (snapshot.functions.map FunctionEntry.start).Nodup) ∧
    (IsSnapshot json snapshot → ¬ (snapshot.functions.map FunctionEntry.start).Nodup →
      ofJson (some json) = .error (repeatedStarts (snapshot.functions.map FunctionEntry.start))) := by
  refine ⟨ofJson_eq_ok_iff, ?_⟩
  intro hsnapshot hrepeated
  obtain ⟨issue, others, hissues⟩ :=
    List.exists_cons_of_ne_nil (mt repeatedStarts_eq_nil_iff.1 hrepeated)
  rw [ofJson, check_of_isSnapshot hsnapshot, hissues]
  rfl

/-- A function whose start is spelled in digits, and one whose start is a number. -/
def twoSpellings (second : Nat) : Json :=
  .object [("functions", .array
    [.object [("start", .string "0x0A"), ("end", .nat 32), ("name", .null)],
      .object [("start", .nat second), ("code", .bool false)]])]

def ofTwoSpellings (second : Nat) : Snapshot :=
  ⟨[⟨10, some 32, none, true⟩, ⟨second, none, none, false⟩], [], []⟩

theorem isSnapshot_twoSpellings {second : Nat} (h : second ≤ Number.maxSafe) :
    IsSnapshot (twoSpellings second) (ofTwoSpellings second) := by
  have hdigits : SpellsHex ['0', 'A'] 10 := ⟨by decide, [0, 10], by decide, by decide, by decide⟩
  have hfirst : IsObject HasFunction
      (.object [("start", .string "0x0A"), ("end", .nat 32), ("name", .null)])
      ⟨10, some 32, none, true⟩ :=
    ⟨_, rfl, ⟨_, rfl, .text rfl hdigits (by decide)⟩,
      .inr ⟨_, rfl, _, .number (by decide), rfl⟩, by simp, .inr ⟨_, rfl, rfl⟩, .inl ⟨rfl, rfl⟩⟩
  have hsecond : IsObject HasFunction (.object [("start", .nat second), ("code", .bool false)])
      ⟨second, none, none, false⟩ :=
    ⟨_, rfl, ⟨_, rfl, .number h⟩, .inl ⟨rfl, rfl⟩, by simp, .inl ⟨rfl, rfl⟩, .inr ⟨_, rfl, rfl⟩⟩
  exact ⟨_, rfl, ⟨_, rfl, _, rfl, .cons hfirst (.cons hsecond .nil)⟩, .inl ⟨rfl, rfl⟩,
    .inl ⟨rfl, rfl⟩⟩

theorem ofJson_exports_twoSpellings :
    IsSnapshot (twoSpellings 10) (ofTwoSpellings 10) ∧
      ofJson (some (twoSpellings 11)) = .ok (ofTwoSpellings 11) ∧
      ofJson (some (twoSpellings 10)) =
        .error [⟨["functions", "1", "start"], .duplicateStart "0xa" 0⟩] := by
  have hsame : IsSnapshot (twoSpellings 10) (ofTwoSpellings 10) :=
    isSnapshot_twoSpellings (by decide)
  have hrepeated : repeatedStarts [10, 10] =
      [⟨["functions", "1", "start"], .duplicateStart "0xa" 0⟩] := by
    decide +kernel
  refine ⟨hsame, (ofJson_exports _ _).1.2 ⟨isSnapshot_twoSpellings (by decide), by decide⟩, ?_⟩
  rw [← hrepeated]
  exact (ofJson_exports _ _).2 hsame (by decide)

end Snapshot

end CallGraph
