import CallGraph.Proofs.Command.Outcomes
import CallGraph.Proofs.Command.ReadBack

/-!
# Answers that are too long

A failure tells all issues of a document, and each issue the keys that lead to it. So a key is told as
often as there are flaws below it, and a short file can have issues that no text can hold. What should
be told as a document of the wrong form is then an internal error.
-/

namespace CallGraph

open Schema

/-! ### Issues -/

namespace Schema.Checked

variable {α : Type}

theorem issues_all (checks : List (Checked α)) : (all checks).issues = checks.flatMap issues := by
  induction checks with
  | nil => rfl
  | cons check rest ih =>
    rw [List.flatMap_cons, ← ih]
    rfl

theorem toExcept_of_issues_ne_nil {c : Checked α} (h : c.issues ≠ []) :
    c.toExcept = .error c.issues := by
  unfold toExcept
  split
  · next hissues => exact absurd hissues h
  · rfl

end Schema.Checked

namespace Document

/-- An entry with numbers among its usages, in place of names. -/
def flawedEntry (count : Nat) : Json :=
  .object [("CallCount", .nat 0), ("Usages", .array (List.replicate count (.nat 0)))]

def flawedMembers (key : String) (count : Nat) : Json.Members :=
  [(key, flawedEntry count)]

/-- The issue that the number at an index is. -/
def flaw (key : String) (index : Nat) : Issue :=
  ⟨[key, "Usages", toString index], .wrongType "string" "number"⟩

theorem issues_usages (count : Nat) :
    (Check.array Check.string (some (.array (List.replicate count (.nat 0))))).issues =
      (List.range count).map fun index => ⟨[toString index], .wrongType "string" "number"⟩ := by
  have hchecks : ((List.replicate count (Json.nat 0)).zipIdx.map fun pair =>
      (Check.string (some pair.1)).under (toString pair.2)) =
        (List.range count).map fun index =>
          (Check.string (some (.nat 0))).under (toString index) := by
    apply List.ext_getElem
    · simp
    · simp
  rw [Check.array, hchecks, Checked.issues_all, List.flatMap_map]
  exact List.map_eq_flatMap.symm

theorem issues_flawedEntry (count : Nat) : (Entry.check (some (flawedEntry count))).issues =
    (List.range count).map fun index =>
      ⟨["Usages", toString index], .wrongType "string" "number"⟩ := by
  have hcallCount : (Entry.checkCount (some (.nat 0))).issues = [] := by
    have hproblems : Check.countProblems (.ofNat 0) = [] := Check.countProblems_eq_nil_iff.2 ⟨0, rfl⟩
    exact congrArg (List.map fun problem => (⟨[], problem⟩ : Issue)) hproblems
  have hparts : (Entry.check (some (flawedEntry count))).issues =
      ((Entry.checkCount (some (.nat 0))).under "CallCount").issues ++
        ((Check.array Check.string
          (some (.array (List.replicate count (.nat 0))))).under "Usages").issues := rfl
  rw [hparts, Checked.under, Checked.under, hcallCount, issues_usages, List.map_map]
  rfl

/-- Each of the numbers is an issue, below the key of the entry. -/
theorem ofJson_flawedMembers (key : String) {count : Nat} (hcount : 0 < count) :
    ofJson (some (.object (flawedMembers key count))) =
      .error ((List.range count).map (flaw key)) := by
  have hissues : (Check.entries Entry.check (some (.object (flawedMembers key count)))).issues =
      (List.range count).map (flaw key) := by
    have hparts : (Check.entries Entry.check (some (.object (flawedMembers key count)))).issues =
        ((Entry.check (some (flawedEntry count))).under key).issues ++ [] := rfl
    rw [hparts, Checked.under, issues_flawedEntry, List.map_map, List.append_nil]
    rfl
  have hne : (List.range count).map (flaw key) ≠ [] := by
    rw [ne_eq, List.map_eq_nil_iff, List.range_eq_nil]
    omega
  rw [← hissues] at hne
  rw [ofJson, Checked.toExcept_of_issues_ne_nil hne, hissues]

theorem exists_describe_flaw (key : String) (index : Nat) :
    ∃ rest, (flaw key index).describe = key ++ rest := by
  have hplace : (flaw key index).place = key ++ "." ++ "Usages" ++ "." ++ toString index := rfl
  have hne : (flaw key index).place ≠ "" := by
    rw [hplace]
    simp
  refine ⟨"." ++ ("Usages" ++ ("." ++ (toString index ++ (": " ++
    (flaw key index).problem.message)))), ?_⟩
  rw [Issue.describe, if_neg hne, hplace]
  simp only [String.append_assoc]

/-- A key takes its room once for each number among the usages. -/
theorem mul_quotedSize_le_issues (key : String) (count : Nat) (path : Path) :
    count * Json.quotedSize key ≤ (Json.strings
      (LoadError.malformed .document path ((List.range count).map (flaw key))).issues).prettySize 2 := by
  have hitems : ∀ item ∈ (LoadError.malformed .document path
      ((List.range count).map (flaw key))).issues.map Json.string,
        Json.quotedSize key ≤ item.prettySize 4 := by
    intro item hitem
    obtain ⟨text, htext, rfl⟩ := List.mem_map.1 hitem
    obtain ⟨issue, hissue, rfl⟩ := List.mem_map.1 htext
    obtain ⟨index, -, rfl⟩ := List.mem_map.1 hissue
    obtain ⟨rest, hdescribe⟩ := exists_describe_flaw key index
    rw [hdescribe]
    exact Json.quotedSize_le_append key rest
  have hroom := Json.mul_length_le_prettySize hitems
  simp only [LoadError.issues, List.length_map, List.length_range] at hroom
  exact hroom

theorem load_flawedMembers {files : FileSystem} {path : Path} {key : String} {count : Nat}
    (hread : files.read? path = some (Json.object (flawedMembers key count)).pretty)
    (hcount : 0 < count) : Document.load files path =
      .error (.malformed .document path ((List.range count).map (flaw key))) := by
  have hnumber : Json.ReadsAs (.nat 0) (.nat 0) := .number (Json.numberReadsAs_ofNat (Nat.zero_le _))
  have hitems : ∀ n, Json.ItemsReadAs (List.replicate n (.nat 0)) (List.replicate n (.nat 0)) := by
    intro n
    induction n with
    | zero => exact .nil
    | succ n ih => exact .cons hnumber ih
  have hvalue : Json.parseFile? (Json.object (flawedMembers key count)).pretty =
      some (.object (flawedMembers key count)) :=
    Json.parseFile?_pretty (.object (.cons (.object (.cons hnumber (.cons (.array (hitems count)) .nil))) .nil))
  rw [Document.load, FileSystem.load, hread, Option.bind_some, hvalue]
  simp only [ofJson_flawedMembers key hcount]

theorem prettySize_flawedMembers_le (key : String) (count : Nat) :
    (Json.object (flawedMembers key count)).prettySize 0 ≤ 54 + Json.quotedSize key + 9 * count := by
  have hlength : (Json.numberText (.ofNat 0)).length = 1 := by decide
  have hzero : ∀ margin, (Json.nat 0).prettySize margin = 1 := fun _ => hlength
  have hkeys : Json.quotedSize "CallCount" = 11 ∧ Json.quotedSize "Usages" = 8 := by decide
  have hdocument := (Json.prettySize_object_bounds 0 (flawedMembers key count)).2
  have hentry : (flawedEntry count).prettySize 2 ≤ _ := (Json.prettySize_object_bounds 2
    [("CallCount", .nat 0), ("Usages", .array (List.replicate count (.nat 0)))]).2
  have husages := (Json.prettySize_array_bounds 4 (List.replicate count (.nat 0))).2
  simp only [flawedMembers, List.map_cons, List.map_nil, List.sum_cons, List.sum_nil,
    List.map_replicate, List.sum_replicate, hkeys, hzero, Nat.nsmul_eq_mul, Nat.reduceAdd]
    at hdocument hentry husages ⊢
  omega

end Document

/-! ### Reports -/

namespace Session

theorem isPrintable_eq_false_of_get? {document : Json.Members} {key : String} {value : Json}
    (h : Json.Members.get? key document = some value) (hlong : Text.maxUnits ≤ value.prettySize 2) :
    isPrintable document = false := by
  have hvalue : Json.quotedSize key + value.prettySize 2 ≤ (Json.object document).prettySize 0 :=
    Json.prettySize_le_of_mem (Json.Members.mem_of_get?_eq_some h) 0
  rw [isPrintable, decide_eq_false_iff_not]
  omega

variable {environment : Environment} {files : FileSystem} {members : Json.Members}
  {start dump : String} {limit : Nat}

/-- A document of the wrong form is an internal error where its issues do not fit a text. -/
theorem tellsFailure_find_of_issues (h : Lookup.FindArguments members start dump limit)
    (hstart : start ≠ "") (hlimit : 0 < limit) {error : LoadError}
    (hload : Document.load files (environment.directory.resolve dump) = .error error)
    (hlong : Text.maxUnits ≤ (Json.strings error.issues).prettySize 2) :
    TellsFailure environment "find" "internal_error"
        (run .standard environment "find" (some (.object members)) files) ∧
      (run .standard environment "find" (some (.object members)) files).exit = .status 1 := by
  have hfind : Lookup.find environment ⟨start, dump, .ofNat limit⟩ files =
      Lookup.dumpInvalid (environment.directory.resolve dump) error := by
    rw [Lookup.find]
    simp only [hload]
  have hissues : Json.Members.get? "issues" (stamped environment "find"
      (Lookup.dumpInvalid (environment.directory.resolve dump) error)) =
        some (.strings error.issues) := by
    rw [Lookup.dumpInvalid, Answer.loadFailure,
      get?_stamped (Answer.nodup_failure _ _) (by decide), Answer.failure,
      Json.Members.get?_merge (by simp)]
    rfl
  rw [Lookup.run_find environment h hstart hlimit, hfind,
    answered_tooLong (isPrintable_eq_false_of_get? hissues hlong)]
  exact tellsFailure_failed environment (isPrintable_internalError environment (by decide))
    (exists_isDocument_internalError environment "find" .tooLong) _ _ _

/-- A document with one entry is enough, if its key is long and there are enough numbers in place of
names: the file has the key once, and the issues have it as often as there are numbers. -/
theorem tellsFailure_find_flawed (h : Lookup.FindArguments members start dump limit)
    (hstart : start ≠ "") (hlimit : 0 < limit) {key : String} {count : Nat}
    (hread : files.read? (environment.directory.resolve dump) =
      some (Json.object (Document.flawedMembers key count)).pretty)
    (hlong : Text.maxUnits ≤ count * Json.quotedSize key) :
    TellsFailure environment "find" "internal_error"
        (run .standard environment "find" (some (.object members)) files) ∧
      (run .standard environment "find" (some (.object members)) files).exit = .status 1 := by
  have hcount : 0 < count := by
    rcases Nat.eq_zero_or_pos count with rfl | hpos
    · exact absurd (hlong.trans_eq (Nat.zero_mul _)) (by decide)
    · exact hpos
  exact tellsFailure_find_of_issues h hstart hlimit (Document.load_flawedMembers hread hcount)
    (hlong.trans (Document.mul_quotedSize_le_issues key count _))

/-- A key of control characters, which take six times their room where they are quoted. -/
def controlKey (length : Nat) : String :=
  String.ofList (List.replicate length '\x01')

theorem quotedSize_controlKey (length : Nat) :
    Json.quotedSize (controlKey length) = 2 + length * 6 := by
  have hsize : Json.escapedSize '\x01' = 6 := by decide
  rw [Json.quotedSize_eq_sum, controlKey, String.toList_ofList, List.map_replicate,
    List.sum_replicate, hsize, Nat.nsmul_eq_mul]

/-- A directory with a document of 148 kilobytes. -/
def flawedFiles : FileSystem :=
  ⟨[(⟨["work"]⟩, .directory), (⟨["work", "xref_data.json"]⟩,
    .file (Json.object (Document.flawedMembers (controlKey 8192) 11000)).pretty)]⟩

def flawedArguments : Json.Members :=
  [("prefix", .string "a"), ("dump", .string "xref_data.json"), ("limit", .nat 1)]

/-- The file is a document of the wrong form, and the status is not 2. -/
theorem find_flawed_internalError :
    TellsFailure workEnvironment "find" "internal_error"
        (run .standard workEnvironment "find" (some (.object flawedArguments)) flawedFiles) ∧
      (run .standard workEnvironment "find" (some (.object flawedArguments)) flawedFiles).exit =
        .status 1 := by
  have hpath : workEnvironment.directory.resolve "xref_data.json" = ⟨["work", "xref_data.json"]⟩ := by
    decide +kernel
  have hfits : Text.fits (Json.object (Document.flawedMembers (controlKey 8192) 11000)).pretty = true := by
    have hsize := Document.prettySize_flawedMembers_le (controlKey 8192) 11000
    rw [quotedSize_controlKey] at hsize
    rw [Text.fits, Json.pretty, String.toList_ofList, Json.unitCount_prettyChars, decide_eq_true_eq]
    exact hsize.trans (by decide)
  have hread : flawedFiles.read? (workEnvironment.directory.resolve "xref_data.json") =
      some (Json.object (Document.flawedMembers (controlKey 8192) 11000)).pretty := by
    rw [hpath]
    exact FileSystem.read?_eq_some_iff.2 ⟨rfl, by decide +kernel, by decide +kernel, hfits⟩
  have harguments : Lookup.FindArguments flawedArguments "a" "xref_data.json" 1 :=
    ⟨rfl, rfl, _, rfl, rfl⟩
  refine tellsFailure_find_flawed harguments (by decide) (by decide) hread ?_
  rw [quotedSize_controlKey]
  decide

end Session

end CallGraph
