import CallGraph.Proofs.Command.Fitting

/-!
# How commands may end

A command ends with a success, with a failure for one of the reasons that it knows, or with issues in
its arguments, whatever the files and the tools hold for it. So the status of a report, the stream on
which its document stands and what the document says agree. A report tells of a fault in one case
alone, where the answer of the command is longer than a text can be.
-/

namespace CallGraph

open Schema

/-! ### Endings -/

/-- The ending is an answer that says of itself what it is, a failure for one of the reasons, or is
about the arguments. -/
inductive Ending.IsRegular (reasons : List String) : Ending → Prop
  | success {data : Json.Members} (hok : "ok" ∉ data.map Prod.fst) :
    IsRegular reasons (.answer (Answer.success data))
  | failure {reason : String} {details : Json.Members} (hreason : reason ∈ reasons)
    (hok : "ok" ∉ details.map Prod.fst) (hown : "reason" ∉ details.map Prod.fst) :
    IsRegular reasons (.answer (Answer.failure reason details))
  | invalid (issues : List Issue) : IsRegular reasons (.invalid issues)

namespace Ending

variable {reasons : List String}

theorem IsRegular.mono {more : List String} (hsubset : reasons ⊆ more) {ending : Ending}
    (h : ending.IsRegular reasons) : ending.IsRegular more := by
  cases h with
  | success hok => exact .success hok
  | failure hreason hok hown => exact .failure (hsubset hreason) hok hown
  | invalid issues => exact .invalid issues

theorem isRegular_loadFailure {reason : String} (hreason : reason ∈ reasons) (hint : String)
    {place : Json.Members} (hok : "ok" ∉ place.map Prod.fst)
    (hown : "reason" ∉ place.map Prod.fst) (error : LoadError) :
    IsRegular reasons (.answer (Answer.loadFailure reason hint place error)) := by
  apply IsRegular.failure hreason
  · simpa using hok
  · simpa using hown

end Ending

/-! ### Commands -/

/-- However it is called, the command ends regularly, with one of the reasons where it fails. -/
def Command.EndsWith (command : Command) (reasons : List String) : Prop :=
  ∀ environment arguments files, (command environment arguments files).ending.IsRegular reasons

theorem Command.endsWith_checked {α : Type} {reasons : List String} (check : Check α)
    {work : Environment → α → FileSystem → Run}
    (h : ∀ environment input files, (work environment input files).ending.IsRegular reasons) :
    (Command.checked check work).EndsWith reasons := by
  intro environment arguments files
  rw [checked]
  split
  · exact .invalid _
  · exact h _ _ _

theorem Normalize.endsWith_command : Normalize.command.EndsWith ["config_invalid"] := by
  apply Command.endsWith_checked
  intro environment input files
  dsimp only
  unfold work
  split
  · exact Ending.isRegular_loadFailure (by simp) _ (by simp) (by simp) _
  · exact .success (by simp)

theorem Lookup.endsWith_queryCommand :
    Lookup.queryCommand.EndsWith ["dump_invalid", "not_found"] := by
  apply Command.endsWith_checked
  intro environment input files
  dsimp only
  unfold query
  dsimp only
  split
  · exact Ending.isRegular_loadFailure (by simp) _ (by simp) (by simp) _
  · split
    · exact .success (by simp)
    · exact .failure (by simp) (by simp) (by simp)

/-- The find command needs a limit with a text, as other values can not be asked for a number. -/
theorem Lookup.isRegular_findCommand (environment : Environment) {arguments : Option Json}
    (h : hasTellableLimit arguments = true) (files : FileSystem) :
    (findCommand environment arguments files).ending.IsRegular ["dump_invalid"] := by
  rw [findCommand, if_pos h]
  apply Command.endsWith_checked
  intro environment input files
  dsimp only
  unfold find
  dsimp only
  split
  · exact Ending.isRegular_loadFailure (by simp) _ (by simp) (by simp) _
  · exact .success (by simp)

theorem Lookup.hasTellableLimit_of_plain {arguments : Option Json}
    (h : ∀ limit, arguments.bind (Json.get? "limit") = some limit →
      (∃ text, limit = .string text) ∨ ∃ number, limit = .number number) :
    hasTellableLimit arguments = true := by
  rw [hasTellableLimit, Option.all_eq_true]
  intro limit hlimit
  rcases h limit hlimit with ⟨text, rfl⟩ | ⟨number, rfl⟩
  all_goals simp [Json.display?, Json.displayChars?]

theorem Dump.isRegular_finish (files : FileSystem) (snapshot output : Path) (config : Config)
    (progress : Graph.Progress) (trace : List Trace) :
    (finish files snapshot output config progress trace).ending.IsRegular ["write_failed"] := by
  unfold finish
  dsimp only
  split
  · exact .failure (by simp) (by simp) (by simp)
  · exact .success (by simp [summary])

/-- No fault ends a dump: the build of an accepted snapshot has none. -/
theorem Dump.endsWith_command :
    Dump.command.EndsWith ["config_invalid", "snapshot_invalid", "write_failed"] := by
  intro environment arguments files
  have hfault := (runsInOrder_command environment arguments files).ending
  have hcourse := course_command environment arguments files
  generalize command environment arguments files = run at hcourse hfault
  cases hcourse with
  | refused issues => exact .invalid issues
  | unconfigured error =>
    exact Ending.isRegular_loadFailure (by simp) _ (by simp) (by simp) error
  | unloaded path error =>
    exact Ending.isRegular_loadFailure (by simp) _ (by simp) (by simp) error
  | faulted loaded built => exact absurd rfl (hfault _)
  | finished accepted configured loaded built =>
    exact (isRegular_finish _ _ _ _ _ _).mono (by simp)

namespace Session

/-! ### Documents -/

/-- A text with one document, laid out as all are, that tells of the command and how it went. -/
structure IsDocument (command : String) (ok : Bool) (text : String) (document : Json) : Prop where
  printed : ∃ members, text = printed members
  parse : Json.parse text = .ok document
  ok : document.get? "ok" = some (.bool ok)
  command : document.get? "command" = some (.string command)

/-- Of printed members with different keys there is one document, in which texts and truth values
stand as they are. -/
theorem exists_isDocument {command : String} {ok : Bool} {members : Json.Members}
    (hnodup : (members.map Prod.fst).Nodup)
    (hok : Json.Members.get? "ok" members = some (.bool ok))
    (hcommand : Json.Members.get? "command" members = some (.string command)) :
    ∃ document, IsDocument command ok (printed members) document ∧
      ∀ reason, Json.Members.get? "reason" members = some (.string reason) →
        document.get? "reason" = some (.string reason) := by
  have hend : Json.EndsNumeral ['\n'] := Json.endsNumeral_newline 0 []
  obtain ⟨document, hread, hmembers⟩ := Json.exists_parse_pretty_object hnodup hend rfl
  have hstring : ∀ {key text}, Json.Members.get? key members = some (.string text) →
      document.get? key = some (.string text) := by
    intro key text hkey
    obtain ⟨result, hresult, hreads⟩ := hmembers key _ hkey
    cases hreads
    exact hresult
  refine ⟨document, ⟨⟨members, rfl⟩, ?_, ?_, hstring hcommand⟩, fun reason => hstring⟩
  · rw [Json.parse, printed, Json.pretty, String.toList_append, String.toList_ofList]
    exact hread
  · obtain ⟨result, hresult, hreads⟩ := hmembers "ok" _ hok
    cases hreads
    exact hresult

theorem exists_isDocument_success (environment : Environment) (command : String)
    {data : Json.Members} (hok : "ok" ∉ data.map Prod.fst) :
    ∃ document, IsDocument command true
      (printed (stamped environment command (Answer.success data))) document := by
  have hmember : Json.Members.get? "ok" (stamped environment command (Answer.success data)) =
      some (.bool true) := by
    rw [get?_stamped (Answer.nodup_success data) (by decide), Answer.success,
      Json.Members.get?_merge_of_not_mem hok]
    rfl
  obtain ⟨document, hdocument, -⟩ := exists_isDocument
    (nodup_stamped environment command _) hmember (get?_command_stamped environment command _)
  exact ⟨document, hdocument⟩

theorem exists_isDocument_failure (environment : Environment) (command reason : String)
    {details : Json.Members} (hok : "ok" ∉ details.map Prod.fst)
    (hown : "reason" ∉ details.map Prod.fst) :
    ∃ document, IsDocument command false
        (printed (stamped environment command (Answer.failure reason details))) document ∧
      document.get? "reason" = some (.string reason) := by
  have hmember : ∀ {key}, key ∈ ["ok", "reason"] → key ∉ details.map Prod.fst →
      Json.Members.get? key (stamped environment command (Answer.failure reason details)) =
        Json.Members.get? key [("ok", .bool false), ("reason", .string reason)] := by
    intro key hkey habsent
    rw [get?_stamped (Answer.nodup_failure reason details) ?_, Answer.failure,
      Json.Members.get?_merge_of_not_mem habsent]
    rw [List.mem_pair] at hkey
    rcases hkey with rfl | rfl <;> decide
  obtain ⟨document, hdocument, hreason⟩ := exists_isDocument
    (nodup_stamped environment command _) (hmember (by decide) hok)
    (get?_command_stamped environment command _)
  exact ⟨document, hdocument, hreason reason (hmember (by decide) hown)⟩

theorem exists_isDocument_validationError (environment : Environment) (command : String)
    (issues : List Issue) :
    ∃ document, IsDocument command false
        (printed (validationError environment command issues)) document ∧
      document.get? "reason" = some (.string "validation_error") := by
  have hnodup : ((validationError environment command issues).map Prod.fst).Nodup := by
    simp [validationError]
  obtain ⟨document, hdocument, hreason⟩ := exists_isDocument hnodup rfl rfl
  exact ⟨document, hdocument, hreason "validation_error" rfl⟩

theorem exists_isDocument_internalError (environment : Environment) (command : String)
    (fault : Fault) :
    ∃ document, IsDocument command false
        (printed (internalError environment command fault)) document ∧
      document.get? "reason" = some (.string "internal_error") := by
  have hnodup : ((internalError environment command fault).map Prod.fst).Nodup := by
    simp [internalError]
  obtain ⟨document, hdocument, hreason⟩ := exists_isDocument hnodup rfl rfl
  exact ⟨document, hdocument, hreason "internal_error" rfl⟩

/-! ### Reports -/

/-- The text is what a logger writes for some records. -/
def IsLog (logger : Log.Logger) (text : String) : Prop :=
  ∃ records : List Log.Record, text = String.join (records.map logger.line)

theorem isLog_logLines (logger : Log.Logger) (trace : List Trace) :
    IsLog logger (logLines logger trace) := by
  induction trace with
  | nil => exact ⟨[], rfl⟩
  | cons event rest ih =>
    obtain ⟨records, hrecords⟩ := ih
    cases event with
    | spawned spawn =>
      refine ⟨records, ?_⟩
      rw [← hrecords]
      exact String.join_cons.trans String.empty_append
    | logged record =>
      refine ⟨record :: records, ?_⟩
      rw [List.map_cons, String.join_cons, ← hrecords]
      exact String.join_cons

/-- The report tells on standard error, behind the log, what went wrong. -/
structure TellsFailure (environment : Environment) (command reason : String) (report : Report) :
    Prop where
  stdout : report.stdout = ""
  stderr : ∃ log text document, report.stderr = log ++ text ∧
    IsLog (logger environment command) log ∧ IsDocument command false text document ∧
      document.get? "reason" = some (.string reason)

/-- Status, streams and document of a report agree with how the command ended: a success stands on
standard output, and what went wrong on standard error. An answer that is too long for a text is told
as an internal error, and of issues that are too long nothing is told. -/
inductive Agrees (environment : Environment) (command : String) (reasons : List String)
    (ending : Ending) (report : Report) : Prop
  | success {members : Json.Members} {document : Json} (answer : ending = .answer members)
    (fits : Text.fits (printed (stamped environment command members)) = true)
    (exit : report.exit = .status 0) (stdout : IsDocument command true report.stdout document)
    (stderr : IsLog (logger environment command) report.stderr)
  | failure {members : Json.Members} {reason : String} (answer : ending = .answer members)
    (fits : Text.fits (printed (stamped environment command members)) = true)
    (exit : report.exit = .status 2) (told : TellsFailure environment command reason report)
    (known : reason ∈ reasons)
  | invalid {issues : List Issue} (refused : ending = .invalid issues)
    (fits : Text.fits (printed (validationError environment command issues)) = true)
    (exit : report.exit = .status 1)
    (told : TellsFailure environment command "validation_error" report)
  | unprinted {members : Json.Members} (answer : ending = .answer members)
    (long : Text.fits (printed (stamped environment command members)) = false)
    (exit : report.exit = .status 1)
    (told : TellsFailure environment command "internal_error" report)
  | untold {issues : List Issue} (refused : ending = .invalid issues)
    (long : Text.fits (printed (validationError environment command issues)) = false)
    (exit : report.exit = .fault .tooLong) (stdout : report.stdout = "")
    (stderr : IsLog (logger environment command) report.stderr)

theorem tellsFailure_failed (environment : Environment) {command reason : String}
    {document : Json.Members} (hprintable : isPrintable document = true)
    (h : ∃ read, IsDocument command false (printed document) read ∧
      read.get? "reason" = some (.string reason))
    (trace : List Trace) (files : FileSystem) (status : Nat) :
    TellsFailure environment command reason
        (failed environment command trace files status document) ∧
      (failed environment command trace files status document).exit = .status status := by
  obtain ⟨read, hread, htold⟩ := h
  rw [failed, if_pos hprintable]
  exact ⟨⟨rfl, _, _, read, rfl, isLog_logLines _ trace, hread, htold⟩, rfl⟩

/-- Whatever an answer says, it is told as an internal error if it can not be printed. -/
theorem agrees_answered_tooLong (environment : Environment) {command : String}
    (hcommand : command.length ≤ 32) (reasons : List String) {members : Json.Members}
    (hlong : isPrintable (stamped environment command members) = false) (trace : List Trace)
    (files : FileSystem) :
    Agrees environment command reasons (.answer members)
      (answered environment command trace files members) := by
  obtain ⟨htold, hexit⟩ := tellsFailure_failed environment
    (isPrintable_internalError environment hcommand)
    (exists_isDocument_internalError environment command .tooLong)
    (trace ++ [.logged (faultRecord command .tooLong)]) files 1
  rw [answered_tooLong hlong]
  exact .unprinted rfl ((isPrintable_eq_fits _).symm.trans hlong) hexit htold

/-- What ends regularly is reported in agreement with its ending. -/
theorem agrees_report {reasons : List String} {run : Run} (h : run.ending.IsRegular reasons)
    (environment : Environment) {command : String} (hcommand : command.length ≤ 32) :
    Agrees environment command reasons run.ending (report environment command run) := by
  obtain ⟨ending, files, trace⟩ := run
  have hlog := isLog_logLines (logger environment command) trace
  cases h with
  | @success data hok =>
    show Agrees _ _ _ _ (answered environment command trace files (Answer.success data))
    cases hprintable : isPrintable (stamped environment command (Answer.success data)) with
    | false => exact agrees_answered_tooLong environment hcommand reasons hprintable trace files
    | true =>
      obtain ⟨document, hdocument⟩ := exists_isDocument_success environment command hok
      rw [answered_success (Answer.isSuccess_success hok) hprintable]
      exact .success rfl ((isPrintable_eq_fits _).symm.trans hprintable) rfl hdocument hlog
  | @failure reason details hreason hok hown =>
    show Agrees _ _ _ _ (answered environment command trace files (Answer.failure reason details))
    cases hprintable : isPrintable (stamped environment command (Answer.failure reason details)) with
    | false => exact agrees_answered_tooLong environment hcommand reasons hprintable trace files
    | true =>
      obtain ⟨htold, hexit⟩ := tellsFailure_failed environment hprintable
        (exists_isDocument_failure environment command reason hok hown) trace files 2
      rw [answered_failure (Answer.isSuccess_failure hok) hprintable]
      exact .failure rfl ((isPrintable_eq_fits _).symm.trans hprintable) hexit htold hreason
  | invalid issues =>
    show Agrees _ _ _ _
      (failed environment command trace files 1 (validationError environment command issues))
    cases hprintable : isPrintable (validationError environment command issues) with
    | false =>
      rw [failed, if_neg (Bool.eq_false_iff.1 hprintable)]
      exact .untold rfl ((isPrintable_eq_fits _).symm.trans hprintable) rfl rfl hlog
    | true =>
      obtain ⟨htold, hexit⟩ := tellsFailure_failed environment hprintable
        (exists_isDocument_validationError environment command issues) trace files 1
      exact .invalid rfl ((isPrintable_eq_fits _).symm.trans hprintable) hexit htold

/-- The reasons for which commands fail. -/
def failureReasons : List String :=
  ["config_invalid", "snapshot_invalid", "dump_invalid", "write_failed", "not_found"]

/-- Every run of a command comes to a report that agrees with how the command ended, whatever its
arguments, files and tools are. What fails does so for a reason that commands know, and only an answer
that is too long to be printed is reported as an internal error. -/
theorem run_agrees (environment : Environment) {command : String}
    (hcommand : command ∈ ["dump", "query", "find", "normalize"]) {arguments : Option Json}
    (hlimit : ∀ limit, arguments.bind (Json.get? "limit") = some limit →
      (∃ text, limit = .string text) ∨ ∃ number, limit = .number number) (files : FileSystem) :
    ∃ work, CommandTable.standard.find? command = some work ∧
      Agrees environment command failureReasons (work environment arguments files).ending
        (run .standard environment command arguments files) := by
  simp only [List.mem_cons, List.not_mem_nil, or_false] at hcommand
  rcases hcommand with rfl | rfl | rfl | rfl
  · have hending := Dump.endsWith_command environment arguments files
    exact ⟨_, rfl, agrees_report (hending.mono (by decide)) environment (by decide)⟩
  · have hending := Lookup.endsWith_queryCommand environment arguments files
    exact ⟨_, rfl, agrees_report (hending.mono (by decide)) environment (by decide)⟩
  · have htellable := Lookup.hasTellableLimit_of_plain hlimit
    have hending := Lookup.isRegular_findCommand environment htellable files
    exact ⟨_, rfl, agrees_report (hending.mono (by decide)) environment (by decide)⟩
  · have hending := Normalize.endsWith_command environment arguments files
    exact ⟨_, rfl, agrees_report (hending.mono (by decide)) environment (by decide)⟩

/-- A directory with a document that breaks off. -/
def brokenFiles : FileSystem :=
  ⟨[(⟨["work"]⟩, .directory), (⟨["work", "xref_data.json"]⟩, .file "\x7b\"ns::f(void)\": ")]⟩

def brokenEnvironment : Environment :=
  { workEnvironment with threshold := some .debug }

def brokenArguments : Json :=
  .object [("prefix", .string "ns::"), ("limit", .string "2")]

theorem run_agrees_broken :
    ∃ reason ∈ failureReasons, TellsFailure brokenEnvironment "find" reason
      (run .standard brokenEnvironment "find" (some brokenArguments) brokenFiles) := by
  have hlimit : ∀ limit, (some brokenArguments).bind (Json.get? "limit") = some limit →
      (∃ text, limit = .string text) ∨ ∃ number, limit = .number number := by
    rintro limit ⟨⟩
    exact .inl ⟨"2", rfl⟩
  have hcommand : "find" ∈ ["dump", "query", "find", "normalize"] := by decide
  obtain ⟨work, -, hagrees⟩ := run_agrees brokenEnvironment hcommand hlimit brokenFiles
  have hexit : (run .standard brokenEnvironment "find" (some brokenArguments) brokenFiles).exit =
      .status 2 := by
    have htellable := Lookup.hasTellableLimit_of_plain hlimit
    show (report brokenEnvironment "find" (Lookup.findCommand brokenEnvironment
      (some brokenArguments) brokenFiles)).exit = .status 2
    rw [Lookup.findCommand, if_pos htellable]
    decide +kernel
  cases hagrees with
  | failure _ _ _ told known => exact ⟨_, known, told⟩
  | success _ _ exit => cases hexit.symm.trans exit
  | invalid _ _ exit => cases hexit.symm.trans exit
  | unprinted _ _ exit => cases hexit.symm.trans exit
  | untold _ _ exit => cases hexit.symm.trans exit

end Session

end CallGraph
