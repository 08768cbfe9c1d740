import CallGraph.Config.Basic
import CallGraph.Proofs.Schema.Meaning
import CallGraph.Proofs.Text.Distinct

/-!
# Configuration files, one after another

Which documents are configuration files is said here without the check; their entries and the name of the output
are never empty. Applying files one after another therefore never leads to a filter with an empty entry, which would
reject every name, or with an entry twice. A file that extends a list leaves it as the first part of the new
one, and a file that has been applied changes nothing when it is applied again.
-/

namespace CallGraph

open Schema Schema.Checked

namespace ConfigFile

/-! ### The documents that are configuration files -/

def IsFilledText (value : Json) (text : String) : Prop :=
  value = .string text ∧ text ≠ ""

def IsAbi (value : Json) (abi : Abi) : Prop :=
  value = .string abi.name ∧ abi.name ∈ Abi.choices

/-- A member that need not be there and then stands for nothing. -/
def Gives {α : Type} (key : String) (stands : Json → α → Prop) (members : Json.Members)
    (result : Option α) : Prop :=
  MayHave key none (fun value result => ∃ given, stands value given ∧ result = some given) members result

/-- The members of a configuration file. -/
structure HasFile (members : Json.Members) (file : ConfigFile) : Prop where
  prefixes : Gives "excludedPrefixes" (IsArray IsFilledText) members file.prefixes?
  substrings : Gives "excludedSubstrings" (IsArray IsFilledText) members file.substrings?
  abi : Gives "abi" IsAbi members file.abi?
  output : Gives "output" IsFilledText members file.output?
  includeDefaults : MayHave "includeDefaults" true (fun value flag => value = .bool flag) members
    file.includeDefaults
  known : ∀ key ∈ members.map Prod.fst, key ∈ keys

theorem accepts_nonEmptyString_some_iff {words : String} {value : Json} {text : String} :
    (Check.nonEmptyString words (some value)).Accepts text ↔ IsFilledText value text := by
  simp [IsFilledText]

theorem accepts_checkAbi_some_iff {value : Json} {abi : Abi} :
    (checkAbi (some value)).Accepts abi ↔ IsAbi value abi := by
  unfold checkAbi Check.oneOf IsAbi
  split
  · next text htext =>
    obtain rfl := Option.some.inj htext
    by_cases htext : text ∈ Abi.choices
    · have hread : Abi.ofChoice? text = some ⟨text⟩ := if_pos (List.contains_iff_mem.2 htext)
      simp only [hread, accepts_ok_iff, Json.string.injEq]
      constructor
      · rintro rfl
        exact ⟨rfl, htext⟩
      · rintro ⟨rfl, -⟩
        rfl
    · have hread : Abi.ofChoice? text = none := if_neg fun h => htext (List.contains_iff_mem.1 h)
      simp only [hread, not_accepts_refuse, Json.string.injEq, false_iff, not_and]
      rintro rfl
      exact htext
  · next hother =>
    simp only [Check.not_accepts_mismatch, false_iff, not_and]
    rintro rfl
    exact absurd rfl (hother abi.name)

theorem unknownKeys_eq_nil_iff {known : List String} {members : Json.Members} :
    Check.unknownKeys known members = [] ↔ ∀ key ∈ members.map Prod.fst, key ∈ known := by
  unfold Check.unknownKeys
  dsimp only
  rw [ite_eq_left_iff]
  simp [List.filter_eq_nil_iff]

theorem ofJson_eq_ok_iff {value : Json} {file : ConfigFile} :
    ofJson (some value) = .ok file ↔ IsObject HasFile value file := by
  rw [ofJson, toExcept_eq_ok_iff]
  refine Check.accepts_object_some_iff fun members file => ?_
  have hissues {checked : Checked ConfigFile} {more : List Issue} :
      ({ checked with issues := checked.issues ++ more } : Checked ConfigFile).Accepts file ↔
        checked.Accepts file ∧ more = [] := by
    simp only [Accepts, List.append_eq_nil_iff, and_assoc]
  have hentries (value : Json) (entries : List String) :
      (checkEntries (some value)).Accepts entries ↔ IsArray IsFilledText value entries :=
    Check.accepts_array_some_iff fun _ _ => accepts_nonEmptyString_some_iff
  have houtput (value : Json) (path : String) :
      (checkOutput (some value)).Accepts path ↔ IsFilledText value path := accepts_nonEmptyString_some_iff
  have hflag (value : Json) (flag : Bool) :
      (Check.bool (some value)).Accepts flag ↔ value = .bool flag := by simp
  rw [hissues, unknownKeys_eq_nil_iff]
  simp only [accepts_seq_iff, accepts_map_iff, Check.accepts_field_optional_iff hentries,
    Check.accepts_field_optional_iff fun _ _ => accepts_checkAbi_some_iff,
    Check.accepts_field_optional_iff houtput, Check.accepts_field_withDefault_iff hflag]
  constructor
  · rintro ⟨⟨_, _, ⟨_, _, ⟨_, _, ⟨_, _, ⟨_, hprefixes, rfl⟩, hsubstrings, rfl⟩, habi, rfl⟩, houtput, rfl⟩,
      hdefaults, rfl⟩, hknown⟩
    exact ⟨hprefixes, hsubstrings, habi, houtput, hdefaults, hknown⟩
  · rintro ⟨hprefixes, hsubstrings, habi, houtput, hdefaults, hknown⟩
    exact ⟨⟨_, _, ⟨_, _, ⟨_, _, ⟨_, _, ⟨_, hprefixes, rfl⟩, hsubstrings, rfl⟩, habi, rfl⟩, houtput, rfl⟩,
      hdefaults, rfl⟩, hknown⟩

/-- No entry of the file is empty, and neither is the output that it names. -/
structure IsFilled (file : ConfigFile) : Prop where
  prefixes : ∀ entries ∈ file.prefixes?, "" ∉ entries
  substrings : ∀ entries ∈ file.substrings?, "" ∉ entries
  output : "" ∉ file.output?

theorem Gives.exists_of_mem {α : Type} {key : String} {stands : Json → α → Prop} {members : Json.Members}
    {result : Option α} (h : Gives key stands members result) {given : α} (hgiven : given ∈ result) :
    ∃ value, stands value given := by
  obtain rfl := Option.mem_def.1 hgiven
  rcases h with ⟨-, hnone⟩ | ⟨value, -, _, hstands, hsome⟩
  · cases hnone
  · cases hsome
    exact ⟨value, hstands⟩

theorem empty_not_mem_of_isArray {value : Json} {entries : List String}
    (h : IsArray IsFilledText value entries) : "" ∉ entries := by
  intro hempty
  obtain ⟨item, -, hfilled⟩ := h.forall_mem "" hempty
  exact hfilled rfl

theorem isFilled_of_ofJson {value : Json} {file : ConfigFile} (h : ofJson (some value) = .ok file) :
    file.IsFilled := by
  obtain ⟨members, -, hfile⟩ := ofJson_eq_ok_iff.1 h
  refine ⟨fun entries hentries => ?_, fun entries hentries => ?_, fun houtput => ?_⟩
  · obtain ⟨given, hgiven⟩ := hfile.prefixes.exists_of_mem hentries
    exact empty_not_mem_of_isArray hgiven
  · obtain ⟨given, hgiven⟩ := hfile.substrings.exists_of_mem hentries
    exact empty_not_mem_of_isArray hgiven
  · obtain ⟨given, -, hfilled⟩ := hfile.output.exists_of_mem houtput
    exact hfilled rfl

end ConfigFile

namespace Config

/-! ### One list of a filter -/

/-- The entries that a file adds to a list: those that are not in it yet, each once, in the order in which the file
has them first. -/
structure Adds (entries present added : List String) : Prop where
  mem_iff : ∀ entry, entry ∈ added ↔ entry ∈ entries ∧ entry ∉ present
  inOrder : added.Pairwise fun a b => entries.idxOf a < entries.idxOf b

/-- A list after a file that extends lists or replaces them, and gives entries or none. -/
inductive Combines (present : List String) : Bool → Option (List String) → List String → Prop
  | kept (includeDefaults : Bool) : Combines present includeDefaults none present
  | extended {entries added : List String} (h : Adds entries present added) :
    Combines present true (some entries) (present ++ added)
  | replaced {entries added : List String} (h : Adds entries [] added) :
    Combines present false (some entries) added

theorem adds_eraseDups_removeAll (entries present : List String) :
    Adds entries present (entries.removeAll present).eraseDups where
  mem_iff entry := by simp [List.removeAll]
  inOrder := pairwise_idxOf_eraseDups_filter _ entries

theorem combines_combine {present : List String} (hpresent : present.Nodup) (includeDefaults : Bool)
    (entries? : Option (List String)) :
    Combines present includeDefaults entries? (combine includeDefaults present entries?) := by
  cases entries? with
  | none => exact .kept includeDefaults
  | some entries =>
    have hadds := adds_eraseDups_removeAll entries
    cases includeDefaults with
    | true =>
      rw [combine, if_pos rfl, List.eraseDups_append, eraseDups_eq_self hpresent]
      exact .extended (hadds present)
    | false =>
      have hall := hadds []
      rw [List.removeAll_nil] at hall
      exact .replaced hall

theorem mem_of_combine {includeDefaults : Bool} {present : List String} {entries? : Option (List String)}
    {entry : String} (h : entry ∈ combine includeDefaults present entries?) :
    entry ∈ present ∨ ∃ entries ∈ entries?, entry ∈ entries := by
  cases entries? with
  | none => exact .inl h
  | some entries =>
    rw [combine] at h
    split at h
    · rw [List.mem_eraseDups, List.mem_append] at h
      exact h.imp_right fun hnew => ⟨entries, rfl, hnew⟩
    · exact .inr ⟨entries, rfl, List.mem_eraseDups.1 h⟩

theorem nodup_combine {present : List String} (hpresent : present.Nodup) (includeDefaults : Bool)
    (entries? : Option (List String)) : (combine includeDefaults present entries?).Nodup := by
  cases entries? with
  | none => exact hpresent
  | some entries =>
    rw [combine]
    split <;> exact nodup_eraseDups _

/-- A list that has been combined with entries has all of them. -/
theorem combine_combine (includeDefaults : Bool) (present : List String) (entries? : Option (List String)) :
    combine includeDefaults (combine includeDefaults present entries?) entries? =
      combine includeDefaults present entries? := by
  cases entries? with
  | none => rfl
  | some entries =>
    cases includeDefaults with
    | false => rfl
    | true =>
      have hnothing : entries.removeAll (present ++ entries).eraseDups = [] := by
        refine List.filter_eq_nil_iff.2 fun entry hentry => ?_
        simp [hentry]
      rw [combine, combine, if_pos rfl, if_pos rfl, List.eraseDups_append,
        eraseDups_eq_self (nodup_eraseDups _), hnothing, List.eraseDups_nil, List.append_nil]

/-! ### Whole configurations -/

/-- A configuration whose lists have each entry once and none that is empty, with a place to write to. -/
structure IsSane (config : Config) : Prop where
  nodup_prefixes : config.filter.prefixes.Nodup
  nodup_substrings : config.filter.substrings.Nodup
  empty_not_mem_prefixes : "" ∉ config.filter.prefixes
  empty_not_mem_substrings : "" ∉ config.filter.substrings
  output_ne : config.output ≠ ""

theorem isSane_default : default.IsSane := by
  constructor <;> decide

variable {config : Config} {file : ConfigFile}

theorem IsSane.apply (h : config.IsSane) (hfile : file.IsFilled) : (config.apply file).IsSane where
  nodup_prefixes := nodup_combine h.nodup_prefixes _ _
  nodup_substrings := nodup_combine h.nodup_substrings _ _
  empty_not_mem_prefixes hempty := by
    rcases mem_of_combine hempty with hpresent | ⟨entries, hentries, hnew⟩
    · exact h.empty_not_mem_prefixes hpresent
    · exact hfile.prefixes entries hentries hnew
  empty_not_mem_substrings hempty := by
    rcases mem_of_combine hempty with hpresent | ⟨entries, hentries, hnew⟩
    · exact h.empty_not_mem_substrings hpresent
    · exact hfile.substrings entries hentries hnew
  output_ne := by
    have houtput := hfile.output
    show file.output?.getD config.output ≠ ""
    cases hgiven : file.output? with
    | none => exact h.output_ne
    | some output =>
      rintro rfl
      exact houtput hgiven

theorem IsSane.verdict_ne (h : config.IsSane) (name : String) (reason : Reason) :
    config.filter.verdict name ≠ .rejected reason "" := by
  unfold NameFilter.verdict
  split
  · next entry hfound =>
    have hmem := List.mem_of_find?_eq_some hfound
    rintro ⟨⟩
    exact h.empty_not_mem_prefixes hmem
  · split
    · next entry hfound =>
      have hmem := List.mem_of_find?_eq_some hfound
      rintro ⟨⟩
      exact h.empty_not_mem_substrings hmem
    · exact nofun

theorem apply_apply (config : Config) (file : ConfigFile) :
    (config.apply file).apply file = config.apply file := by
  simp only [apply, combine_combine, Config.mk.injEq, true_and]
  constructor
  · cases file.abi? <;> rfl
  · cases file.output? <;> rfl

/-- The configurations that files lead to, one after another, from the defaults on. -/
def history (files : List ConfigFile) : List Config :=
  files.scanl apply default

theorem isSane_of_mem_scanl {files : List ConfigFile} (hfiles : ∀ file ∈ files, file.IsFilled)
    {start : Config} (hstart : start.IsSane) : ∀ config ∈ files.scanl apply start, config.IsSane := by
  induction files generalizing start with
  | nil =>
    rw [List.scanl_nil, List.forall_mem_singleton]
    exact hstart
  | cons file files ih =>
    obtain ⟨hfile, hrest⟩ := List.forall_mem_cons.1 hfiles
    rw [List.scanl_cons, List.forall_mem_cons]
    exact ⟨hstart, ih hrest (hstart.apply hfile)⟩

/-- Whatever files are applied one after another, no configuration on the way has an entry twice or an empty one;
one more file extends or replaces the lists, and applying it again changes nothing. -/
theorem isSane_history {values : List Json} {files : List ConfigFile}
    (h : List.Forall₂ (fun value file => ConfigFile.ofJson (some value) = .ok file) values files) :
    ∀ config ∈ history files, config.IsSane ∧
      (∀ name reason, config.filter.verdict name ≠ .rejected reason "") ∧
      ∀ value file, ConfigFile.ofJson (some value) = .ok file →
        Combines config.filter.prefixes file.includeDefaults file.prefixes?
            (config.apply file).filter.prefixes ∧
          Combines config.filter.substrings file.includeDefaults file.substrings?
            (config.apply file).filter.substrings ∧
          (config.apply file).apply file = config.apply file := by
  have hfiles : ∀ file ∈ files, file.IsFilled := by
    intro file hfile
    obtain ⟨value, hvalue⟩ := exists_of_forall₂ h file hfile
    exact ConfigFile.isFilled_of_ofJson hvalue
  intro config hconfig
  have hsane := isSane_of_mem_scanl hfiles isSane_default config hconfig
  refine ⟨hsane, hsane.verdict_ne, fun value file _ => ⟨?_, ?_, apply_apply config file⟩⟩
  · exact combines_combine hsane.nodup_prefixes _ _
  · exact combines_combine hsane.nodup_substrings _ _

/-- A file that extends the excluded namespaces, by one that is excluded already and by one that it names twice. -/
def extendingValue : Json :=
  .object [("excludedPrefixes", .strings ["Vendor::", "System::", "Vendor::"]), ("output", .string "out.json")]

def extending : ConfigFile where
  prefixes? := some ["Vendor::", "System::", "Vendor::"]
  substrings? := none
  abi? := none
  output? := some "out.json"
  includeDefaults := true

/-- A file that replaces the excluded namespaces and says nothing about markers. -/
def replacingValue : Json :=
  .object [("excludedPrefixes", .strings ["Lib::", "Vendor::", "Lib::"]), ("includeDefaults", .bool false)]

def replacing : ConfigFile where
  prefixes? := some ["Lib::", "Vendor::", "Lib::"]
  substrings? := none
  abi? := none
  output? := none
  includeDefaults := false

theorem isSane_history_replacing :
    List.Forall₂ (fun value file => ConfigFile.ofJson (some value) = .ok file) [extendingValue] [extending] ∧
      ConfigFile.ofJson (some replacingValue) = .ok replacing ∧
      default.apply extending ∈ history [extending] ∧ (default.apply extending).IsSane ∧
      Combines (defaultPrefixes ++ ["Vendor::"]) false (some ["Lib::", "Vendor::", "Lib::"])
        ["Lib::", "Vendor::"] ∧
      ((default.apply extending).apply replacing).apply replacing = (default.apply extending).apply replacing := by
  have hfiles : List.Forall₂ (fun value file => ConfigFile.ofJson (some value) = .ok file)
      [extendingValue] [extending] := .cons rfl .nil
  have hfile : ConfigFile.ofJson (some replacingValue) = .ok replacing := rfl
  have hmem : default.apply extending ∈ history [extending] := by simp [history]
  obtain ⟨hsane, -, hstep⟩ := isSane_history hfiles _ hmem
  obtain ⟨hprefixes, -, hagain⟩ := hstep replacingValue replacing hfile
  have hpresent : (default.apply extending).filter.prefixes = defaultPrefixes ++ ["Vendor::"] := by decide +kernel
  have hreplaced : ((default.apply extending).apply replacing).filter.prefixes = ["Lib::", "Vendor::"] := by
    decide +kernel
  rw [hpresent, hreplaced] at hprefixes
  exact ⟨hfiles, hfile, hmem, hsane, hprefixes, hagain⟩

end Config

end CallGraph
