import CallGraph.Command.Session
import CallGraph.Proofs.Json.Length
import CallGraph.Proofs.Json.Members

/-!
# How answers become reports

A report has status 0 exactly for an answer that tells of success and is short enough to be printed. Of
success tells the member `ok`, which no other member of an answer touches. Whatever becomes of an answer,
the report holds the files of the run and the tools that it ran.
-/

namespace CallGraph

namespace Answer

theorem isSuccess_success {data : Json.Members} (h : "ok" ∉ data.map Prod.fst) :
    isSuccess (success data) = true := by
  rw [isSuccess, success, Json.Members.get?_merge_of_not_mem h]
  rfl

theorem isSuccess_failure {reason : String} {details : Json.Members}
    (h : "ok" ∉ details.map Prod.fst) : isSuccess (failure reason details) = false := by
  rw [isSuccess, failure, Json.Members.get?_merge_of_not_mem h]
  rfl

theorem nodup_success (data : Json.Members) : ((success data).map Prod.fst).Nodup := by
  apply Json.Members.nodup_merge
  exact List.nodup_singleton _

theorem nodup_failure (reason : String) (details : Json.Members) :
    ((failure reason details).map Prod.fst).Nodup := by
  apply Json.Members.nodup_merge
  simp

theorem isSuccess_loadFailure (reason hint : String) {place : Json.Members} (error : LoadError)
    (h : "ok" ∉ place.map Prod.fst) : isSuccess (loadFailure reason hint place error) = false :=
  isSuccess_failure (by simpa using h)

end Answer

namespace Session

/-- A document is printed where its text is one. -/
theorem isPrintable_eq_fits (document : Json.Members) :
    isPrintable document = Text.fits (printed document) := by
  have hend : Text.unitCount "\n".toList = 1 := rfl
  rw [isPrintable, Text.fits, printed, Json.pretty, String.toList_append, String.toList_ofList,
    Text.unitCount_append, Json.unitCount_prettyChars, hend]

/-- The members of an answer stand in its report, but for those that every report sets. -/
theorem get?_stamped {members : Json.Members} (hmembers : (members.map Prod.fst).Nodup)
    {key : String} (hkey : key ∉ ["command", "timestamp", "duration_ms"])
    (environment : Environment) (command : String) :
    Json.Members.get? key (stamped environment command members) =
      Json.Members.get? key members := by
  have hset : key ∉ [("command", Json.string command), ("timestamp", .string environment.stamp),
      ("duration_ms", .nat 0)].map Prod.fst := hkey
  rw [stamped, Json.Members.get?_merge_of_not_mem hset, Json.Members.get?_merge hmembers]
  exact Option.or_none

theorem get?_command_stamped (environment : Environment) (command : String)
    (members : Json.Members) :
    Json.Members.get? "command" (stamped environment command members) =
      some (.string command) := by
  rw [stamped, Json.Members.get?_merge (by simp)]
  rfl

theorem nodup_stamped (environment : Environment) (command : String) (members : Json.Members) :
    ((stamped environment command members).map Prod.fst).Nodup := by
  apply Json.Members.nodup_merge
  apply Json.Members.nodup_merge
  exact List.nodup_nil

/-- The members of a success stand in its report, but for those that every report sets. -/
theorem get?_stamped_success {data : Json.Members} (hdata : ("ok" :: data.map Prod.fst).Nodup)
    {key : String} (hkey : key ∉ ["ok", "command", "timestamp", "duration_ms"])
    (environment : Environment) (command : String) :
    Json.Members.get? key (stamped environment command (Answer.success data)) =
      Json.Members.get? key data := by
  rw [List.mem_cons, not_or] at hkey
  have hok : Json.Members.get? key [("ok", .bool true)] = none :=
    Json.Members.get?_eq_none_iff.2 (by simpa using hkey.1)
  have hkeys : ((Answer.success data).map Prod.fst).Nodup := Answer.nodup_success data
  rw [get?_stamped hkeys hkey.2, Answer.success,
    Json.Members.get?_merge (List.nodup_cons.1 hdata).2, hok, Option.or_none]

variable (environment : Environment) (command : String)

/-! ### What every report holds -/

theorem spawns_concat_logged (trace : List Trace) (record : Log.Record) :
    spawns (trace ++ [.logged record]) = spawns trace := by
  rw [spawns, List.filterMap_append]
  exact List.append_nil _

theorem files_failed (trace : List Trace) (files : FileSystem) (status : Nat) (document : Json.Members) :
    (failed environment command trace files status document).files = files ∧
      (failed environment command trace files status document).spawned = spawns trace := by
  unfold failed
  dsimp only
  split <;> exact ⟨rfl, rfl⟩

theorem files_broken (trace : List Trace) (files : FileSystem) (fault : Fault) :
    (broken environment command trace files fault).files = files ∧
      (broken environment command trace files fault).spawned = spawns trace := by
  unfold broken
  split
  · obtain ⟨hfiles, hspawned⟩ := files_failed environment command
      (trace ++ [.logged (faultRecord command fault)]) files 1 (internalError environment command fault)
    exact ⟨hfiles, hspawned.trans (spawns_concat_logged trace _)⟩
  · exact ⟨rfl, rfl⟩

/-- Whatever is reported of a run, its files and the tools that it ran are in the report. -/
theorem files_report (run : Run) :
    (report environment command run).files = run.files ∧
      (report environment command run).spawned = spawns run.trace := by
  unfold report
  split
  · unfold answered
    dsimp only
    split
    · split
      · exact ⟨rfl, rfl⟩
      · exact files_failed _ _ _ _ _ _
    · exact files_broken _ _ _ _ _
  · exact files_failed _ _ _ _ _ _
  · exact files_broken _ _ _ _ _

/-! ### Status 0 -/

theorem exit_failed_ne {status : Nat} (hstatus : status ≠ 0) (trace : List Trace) (files : FileSystem)
    (document : Json.Members) :
    (failed environment command trace files status document).exit ≠ .status 0 := by
  unfold failed
  dsimp only
  split
  · exact fun h => hstatus (Exit.status.inj h)
  · exact fun h => nomatch h

theorem exit_broken_ne (trace : List Trace) (files : FileSystem) (fault : Fault) :
    (broken environment command trace files fault).exit ≠ .status 0 := by
  unfold broken
  split
  · exact exit_failed_ne _ _ (by decide) _ _ _
  · exact fun h => nomatch h

variable {environment command}

theorem answered_success {members : Json.Members} (hsuccess : Answer.isSuccess members = true)
    (hprintable : isPrintable (stamped environment command members) = true) (trace : List Trace)
    (files : FileSystem) :
    answered environment command trace files members =
      ⟨.status 0, printed (stamped environment command members),
        logLines (logger environment command) trace, files, spawns trace⟩ := by
  rw [answered]
  exact (if_pos hprintable).trans (if_pos hsuccess)

theorem answered_failure {members : Json.Members} (hfailure : Answer.isSuccess members = false)
    (hprintable : isPrintable (stamped environment command members) = true) (trace : List Trace)
    (files : FileSystem) :
    answered environment command trace files members =
      failed environment command trace files 2 (stamped environment command members) := by
  rw [answered]
  exact (if_pos hprintable).trans (if_neg (Bool.eq_false_iff.1 hfailure))

/-- What the answer says does not matter where it can not be printed. -/
theorem answered_tooLong {members : Json.Members}
    (hlong : isPrintable (stamped environment command members) = false) (trace : List Trace)
    (files : FileSystem) :
    answered environment command trace files members =
      failed environment command (trace ++ [.logged (faultRecord command .tooLong)]) files 1
        (internalError environment command .tooLong) := by
  have htellable : Fault.tooLong.isTellable = true := rfl
  have hanswered : answered environment command trace files members =
      broken environment command trace files .tooLong := if_neg (Bool.eq_false_iff.1 hlong)
  rw [hanswered, broken, if_pos htellable]

theorem exists_answer_of_report {run : Run}
    (h : (report environment command run).exit = .status 0) :
    ∃ members, run.ending = .answer members ∧ Answer.isSuccess members = true ∧
      (report environment command run).stdout = printed (stamped environment command members) := by
  unfold report at h ⊢
  split at h
  · next members hending =>
    unfold answered at h
    dsimp only at h
    split at h
    · next hprintable =>
      split at h
      · next hsuccess =>
        rw [answered_success hsuccess hprintable]
        exact ⟨members, hending, hsuccess, rfl⟩
      · exact absurd h (exit_failed_ne _ _ (by decide) _ _ _)
    · exact absurd h (exit_broken_ne _ _ _ _ _)
  · exact absurd h (exit_failed_ne _ _ (by decide) _ _ _)
  · exact absurd h (exit_broken_ne _ _ _ _ _)

/-! ### A directory to run in -/

/-- The directory of examples. No tools are there, and nothing is logged. -/
def workEnvironment : Environment where
  directory := ⟨["work"]⟩
  tools := Toolbox.empty
  threshold := none
  stamp := "now"

end Session

end CallGraph
