import CallGraph.Proofs.Command.Fitting
import CallGraph.Proofs.FileSystem.Keeping

/-!
# What commands do to files

Only a dump writes, and it writes last, so that whatever goes wrong before leaves all files alone. A dump
that succeeds changes one file, under the path that it tells, whatever else that path may stand for.
-/

namespace CallGraph

/-! ### Commands that only read -/

/-- The command leaves files and directories as they are. -/
def Command.OnlyReads (command : Command) : Prop :=
  ∀ environment arguments files, (command environment arguments files).files = files

theorem Command.onlyReads_reading {α : Type} (check : Schema.Check α)
    (work : Environment → α → FileSystem → Json.Members) :
    (Command.reading check work).OnlyReads := by
  intro environment arguments files
  rw [reading, checked]
  split <;> rfl

theorem Lookup.onlyReads_findCommand : Lookup.findCommand.OnlyReads := by
  intro environment arguments files
  rw [findCommand]
  split
  · exact Command.onlyReads_reading _ _ environment arguments files
  · rfl

theorem CommandTable.onlyReads_of_find? {name : String} {command : Command} (hname : name ≠ "dump")
    (h : CommandTable.standard.find? name = some command) : command.OnlyReads := by
  have hcommands : ∀ entry ∈ CommandTable.standard, entry.1 ≠ "dump" → entry.2.OnlyReads := by
    simp only [standard, List.forall_mem_cons]
    refine ⟨fun hdump => absurd rfl hdump, fun _ => ?_, fun _ => ?_, fun _ => ?_, by simp⟩
    · exact Command.onlyReads_reading _ _
    · exact Lookup.onlyReads_findCommand
    · exact Command.onlyReads_reading _ _
  unfold find? at h
  split at h
  · next found hfound =>
    obtain ⟨before, after, hentry, -⟩ := List.lookup_eq_some_iff.1 hfound
    cases h
    exact hcommands (name, command) (hentry ▸ by simp) hname
  · split at h
    · cases h
      exact fun _ _ _ => rfl
    · cases h

/-! ### Dumps -/

namespace Dump

/-- A dump that does not end with status 0 leaves all files as they were, wherever it has failed. -/
theorem hasSameFiles_or_exit (environment : Environment) (arguments : Option Json)
    (files : FileSystem) :
    files.HasSameFiles (command environment arguments files).files ∨
      (Session.report environment "dump" (command environment arguments files)).exit =
        .status 0 := by
  have hcourse := course_command environment arguments files
  generalize command environment arguments files = run at hcourse
  cases hcourse with
  | @finished input config snapshot progress state accepted configured loaded built =>
    unfold finish
    dsimp only
    split
    · next hfailed => exact .inl (FileSystem.hasSameFiles_of_write_eq_some hfailed)
    · next after hwritten =>
      -- What is told of a written file can be printed, and so the report has status 0.
      let run : DumpRun environment arguments files ⟨.status 0, _, "", after, []⟩ :=
        ⟨input, config, snapshot, progress, state, accepted, configured, loaded, built, hwritten, rfl⟩
      have hreport := Session.answered_success (Answer.isSuccess_success (by simp [summary]))
        run.isPrintable (state.trace ++ [.logged (doneRecord (summary
          (environment.directory.resolve input.snapshot) (environment.directory.resolve config.output)
            config.abi progress.graph (Document.render progress.graph)) progress.stats)]) after
      exact .inr (congrArg Report.exit hreport)
  | _ =>
    -- Nothing has been written where an earlier step failed.
    exact .inl (.refl files)

end Dump

namespace DumpRun

variable {environment : Environment} {arguments : Option Json} {files : FileSystem}
  {report : Report}

/-- What a dump of status 0 has changed, and what it tells of that. The path of the file is that of the
arguments, or else of the configuration; records that ran over others are no records of the graph. -/
structure IsTold (run : DumpRun environment arguments files report) : Prop where
  output : ∃ config, Config.load files environment.directory run.input.config? = .ok config ∧
    run.output = environment.directory.resolve (run.input.out?.getD config.output)
  written : report.files.text? run.output = some (Document.render run.graph)
  others : ∀ path, path ≠ run.output → report.files.text? path = files.text? path
  members : ∃ members, report.stdout = Session.printed members ∧
    Json.Members.get? "output" members = some (.string run.output.toText) ∧
    Json.Members.get? "bytes" members = some (.nat (Document.render run.graph).utf8ByteSize) ∧
    Json.Members.get? "functions" members = some (.nat run.graph.records.length) ∧
    Json.Members.get? "stats" members = some run.progress.stats.toJson
  records : run.progress.stats.collisions ≤ run.progress.stats.recorded ∧
    run.graph.records.length = run.progress.stats.recorded - run.progress.stats.collisions

theorem isTold (run : DumpRun environment arguments files report) : run.IsTold where
  output := by
    obtain ⟨config, hload, hconfig⟩ := run.exists_config
    refine ⟨config, hload, ?_⟩
    rw [DumpRun.output, hconfig]
    rfl
  written := (FileSystem.read?_eq_some_iff.1 (FileSystem.read?_of_write run.written)).1
  others path hpath := FileSystem.text?_of_write_of_ne run.written hpath
  members := by
    have hkeys : ("ok" :: (Dump.summary (environment.directory.resolve run.input.snapshot)
        (environment.directory.resolve run.config.output) run.config.abi run.progress.graph
        (Document.render run.progress.graph) ++ [("stats", run.progress.stats.toJson)]).map
          Prod.fst).Nodup := by
      simp [Dump.summary]
    refine ⟨_, run.printed, ?_, ?_, ?_, ?_⟩
    all_goals
      rw [Session.get?_stamped_success hkeys (by decide)]
      rfl
  records := by
    obtain ⟨answers, -, hcounts⟩ := run.exists_counts
    have hsize : run.progress.stats.collisions + run.graph.size = run.progress.stats.recorded :=
      hcounts.collisions
    have hlength : run.graph.size = run.graph.records.length := rfl
    omega

end DumpRun

namespace Session

/-- All commands but the dump leave the files as they are, and so does a dump that ends in another way
than with status 0. A dump that ends with status 0 changes the file at its output path alone, into the
document that it tells of. -/
theorem run_files (environment : Environment) (arguments : Option Json) (files : FileSystem) :
    (∀ name, name ≠ "dump" →
      (Session.run .standard environment name arguments files).files = files) ∧
      ∃ report, Session.run .standard environment "dump" arguments files = report ∧
        (report.exit ≠ .status 0 → ∀ path, report.files.text? path = files.text? path) ∧
        (report.exit = .status 0 →
          ∃ run : DumpRun environment arguments files report, run.IsTold) := by
  constructor
  · intro name hname
    unfold run
    split
    · exact (files_failed _ _ _ _ _ _).1
    · next command hcommand =>
      have hreads := CommandTable.onlyReads_of_find? hname hcommand environment arguments files
      exact (files_report environment name _).1.trans hreads
  · refine ⟨_, rfl, fun hfailed => ?_, fun hzero => ?_⟩
    · have hfiles : (Session.run .standard environment "dump" arguments files).files =
          (Dump.command environment arguments files).files := (files_report environment "dump" _).1
      rw [hfiles]
      exact (Dump.hasSameFiles_or_exit environment arguments files).resolve_right hfailed
    · obtain ⟨run⟩ := DumpRun.exists_of_run rfl hzero
      exact ⟨run, run.isTold⟩

/-- A directory whose configuration names itself as the place of the document. -/
def ownConfigFiles : FileSystem :=
  ⟨[(⟨["work"]⟩, .directory),
    (⟨["work", "xref.config.json"]⟩, .file "\x7b\"output\": \"xref.config.json\"\x7d"),
    (⟨["work", "snapshot.json"]⟩, .file
      ("\x7b\"functions\": [\x7b\"start\": 1, \"name\": \"?f\"\x7d], " ++
        "\"demangled\": \x7b\"msvc\": \x7b\"?f\": \"void ns::f(void)\"\x7d\x7d\x7d"))]⟩

def plainArguments : Json :=
  .object [("snapshot", .string "snapshot.json")]

def ownGraph : Graph :=
  ⟨[⟨"ns::f(void)", .ofNat 0, []⟩], List.nodup_singleton _⟩

theorem run_files_ownConfig :
    ∃ report, Session.run .standard workEnvironment "dump" (some plainArguments) ownConfigFiles
        = report ∧ report.exit = .status 0 ∧
      report.files.text? ⟨["work", "xref.config.json"]⟩ = some (Document.render ownGraph) ∧
      (∀ path, path ≠ ⟨["work", "xref.config.json"]⟩ →
        report.files.text? path = ownConfigFiles.text? path) ∧
      ∃ members, report.stdout = printed members ∧
        Json.Members.get? "output" members = some (.string "/work/xref.config.json") := by
  obtain ⟨-, report, hrun, -, hdumped⟩ :=
    run_files workEnvironment (some plainArguments) ownConfigFiles
  have hzero : (Session.run .standard workEnvironment "dump" (some plainArguments)
      ownConfigFiles).exit = .status 0 := by decide +kernel
  rw [hrun] at hzero
  obtain ⟨run, htold⟩ := hdumped hzero
  obtain ⟨config, hconfig, houtput⟩ := htold.output
  have hinput : run.input = ⟨"snapshot.json", none, none, none, false⟩ := by
    have hchecked : (DumpInput.check (some plainArguments)).toExcept =
        .ok ⟨"snapshot.json", none, none, none, false⟩ := by decide +kernel
    exact Except.ok.inj (run.accepted.symm.trans hchecked)
  have hload : Config.load ownConfigFiles ⟨["work"]⟩ none =
      .ok ⟨Config.defaultFilter, .msvc, "xref.config.json"⟩ := by decide +kernel
  rw [hinput] at hconfig houtput
  obtain rfl := Except.ok.inj (hload.symm.trans hconfig)
  have hpath : run.output = ⟨["work", "xref.config.json"]⟩ := by
    rw [houtput]
    decide +kernel
  have htext : (Session.run .standard workEnvironment "dump" (some plainArguments)
      ownConfigFiles).files.text? ⟨["work", "xref.config.json"]⟩ =
        some (Document.render ownGraph) := by decide +kernel
  rw [hrun] at htext
  have hothers := htold.others
  obtain ⟨members, hprinted, htoldOutput, -⟩ := htold.members
  rw [hpath] at hothers htoldOutput
  exact ⟨report, hrun, hzero, htext, hothers, members, hprinted, htoldOutput⟩

end Session

end CallGraph
