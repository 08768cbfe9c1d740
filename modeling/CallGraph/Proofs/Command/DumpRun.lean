import CallGraph.Proofs.Command.Answering
import CallGraph.Proofs.Document.RoundTrip
import CallGraph.Proofs.FileSystem.ReadBack
import CallGraph.Proofs.Graph.Running
import CallGraph.Proofs.Json.Size
import CallGraph.Proofs.Name.Idempotence
import CallGraph.Proofs.Snapshot.Exports

/-!
# Successful dumps

A dump that ends with status 0 has gone through all of its steps: arguments, configuration,
snapshot, build and write. `DumpRun` holds what each of them gave. From it follows what the file is
good for, as it holds a document whose names are canonical and whose counts are exact.
-/

namespace CallGraph

open Schema

namespace Dump

variable (tools : Toolbox) (useTools : Bool) (snapshot : Snapshot)

def engine : Engine Demangler :=
  snapshot.index.engine (if useTools then Demangler.query tools else fun _ _ => return none)

def start (abi : Abi) : Demangler :=
  if useTools then informed tools snapshot abi else Demangler.fresh []

def tell (context : Json.Members) (event : BuildEvent) (state : Demangler) : Demangler :=
  state.note [.logged (event.record context)]

theorem build_eq (context : Json.Members) (config : Config) :
    build tools useTools context config snapshot =
      Graph.build (engine tools useTools snapshot) config.filter config.abi (tell context)
        (start tools useTools snapshot config.abi) := by
  cases useTools <;> rfl

/-- The ways that a dump can go: it stops at the first step that fails, and only the last one
writes. -/
inductive Course (environment : Environment) (arguments : Option Json) (files : FileSystem) :
    Run → Prop
  | refused (issues : List Issue) : Course environment arguments files ⟨.invalid issues, files, []⟩
  | unconfigured (error : LoadError) :
    Course environment arguments files ⟨.answer (Answer.configInvalid error), files, []⟩
  | unloaded (path : Path) (error : LoadError) :
    Course environment arguments files ⟨.answer (snapshotInvalid path error), files, []⟩
  | faulted {path : Path} {input : DumpInput} {context : Json.Members} {config : Config}
    {snapshot : Snapshot} {fault : Fault} {state : Demangler}
    (loaded : Snapshot.load files path = .ok snapshot)
    (built : build environment.tools input.useTools context config snapshot =
      (.error fault, state)) :
    Course environment arguments files ⟨.fault fault, files, state.trace⟩
  | finished {input : DumpInput} {config : Config} {snapshot : Snapshot}
    {progress : Graph.Progress} {state : Demangler}
    (accepted : (DumpInput.check arguments).toExcept = .ok input)
    (configured : (Config.load files environment.directory input.config?).map
      (fun config => config.override input.overrides) = .ok config)
    (loaded : Snapshot.load files (environment.directory.resolve input.snapshot) = .ok snapshot)
    (built : build environment.tools input.useTools
      [("snapshot", .string (environment.directory.resolve input.snapshot).toText)] config snapshot
        = (.ok progress, state)) :
    Course environment arguments files
      (finish files (environment.directory.resolve input.snapshot)
        (environment.directory.resolve config.output) config progress state.trace)

theorem course_command (environment : Environment) (arguments : Option Json) (files : FileSystem) :
    Course environment arguments files (command environment arguments files) := by
  unfold command Command.checked
  split
  · exact .refused _
  · next input haccepted =>
    unfold work
    dsimp only
    split
    · exact .unconfigured _
    · next base hbase =>
      have hconfigured : (Config.load files environment.directory input.config?).map
          (fun config => config.override input.overrides) = .ok (base.override input.overrides) := by
        rw [hbase]
        rfl
      split
      · exact .unloaded _ _
      · next snapshot hloaded =>
        split
        · next fault state hbuilt => exact .faulted hloaded hbuilt
        · next progress state hbuilt => exact .finished haccepted hconfigured hloaded hbuilt

end Dump

theorem finish_eq_of_isSuccess {files : FileSystem} {snapshot output : Path} {config : Config}
    {progress : Graph.Progress} {trace : List Trace} {members : Json.Members}
    (hending : (Dump.finish files snapshot output config progress trace).ending = .answer members)
    (hsuccess : Answer.isSuccess members = true) :
    files.write output (Document.render progress.graph) =
        (none, (Dump.finish files snapshot output config progress trace).files) ∧
      members = Answer.success (Dump.summary snapshot output config.abi progress.graph
        (Document.render progress.graph) ++ [("stats", progress.stats.toJson)]) := by
  unfold Dump.finish at hending ⊢
  dsimp only at hending ⊢
  split at hending
  · have hfailed : Answer.isSuccess (Dump.writeFailed output) = false :=
      Answer.isSuccess_failure (by simp)
    rw [← Ending.answer.inj hending, hfailed] at hsuccess
    cases hsuccess
  · next after hwritten =>
    rw [hwritten]
    exact ⟨rfl, (Ending.answer.inj hending).symm⟩

/-- What a dump with a report of status 0 has gone through. -/
structure DumpRun (environment : Environment) (arguments : Option Json) (files : FileSystem)
    (report : Report) where
  input : DumpInput
  config : Config
  snapshot : Snapshot
  progress : Graph.Progress
  state : Demangler
  accepted : (DumpInput.check arguments).toExcept = .ok input
  configured : (Config.load files environment.directory input.config?).map
    (fun config => config.override input.overrides) = .ok config
  loaded : Snapshot.load files (environment.directory.resolve input.snapshot) = .ok snapshot
  built : Dump.build environment.tools input.useTools
    [("snapshot", .string (environment.directory.resolve input.snapshot).toText)] config snapshot
      = (.ok progress, state)
  written : files.write (environment.directory.resolve config.output)
    (Document.render progress.graph) = (none, report.files)
  printed : report.stdout = Session.printed (Session.stamped environment "dump" (Answer.success
    (Dump.summary (environment.directory.resolve input.snapshot)
      (environment.directory.resolve config.output) config.abi progress.graph
      (Document.render progress.graph) ++ [("stats", progress.stats.toJson)])))

namespace DumpRun

variable {environment : Environment} {arguments : Option Json} {files : FileSystem}
  {report : Report}

theorem exists_of_run (h : Session.run .standard environment "dump" arguments files = report)
    (hstatus : report.exit = .status 0) : Nonempty (DumpRun environment arguments files report) := by
  have hrun : Session.report environment "dump" (Dump.command environment arguments files)
      = report := h
  have hfiles : report.files = (Dump.command environment arguments files).files :=
    hrun ▸ (Session.files_report environment "dump" _).1
  rw [← hrun] at hstatus
  obtain ⟨members, hending, hsuccess, hprinted⟩ := Session.exists_answer_of_report hstatus
  rw [hrun] at hprinted
  have hcourse := Dump.course_command environment arguments files
  generalize Dump.command environment arguments files = run at hcourse hending hfiles
  -- An early end is an answer of failure or none at all, and so has another status.
  cases hcourse with
  | refused issues => cases hending
  | unconfigured error =>
    have hfailed : Answer.isSuccess (Answer.configInvalid error) = false :=
      Answer.isSuccess_loadFailure _ _ error (by simp)
    rw [← Ending.answer.inj hending, hfailed] at hsuccess
    cases hsuccess
  | unloaded path error =>
    have hfailed : Answer.isSuccess (Dump.snapshotInvalid path error) = false :=
      Answer.isSuccess_loadFailure _ _ error (by simp)
    rw [← Ending.answer.inj hending, hfailed] at hsuccess
    cases hsuccess
  | faulted loaded built => cases hending
  | finished accepted configured loaded built =>
    obtain ⟨hwritten, hmembers⟩ := finish_eq_of_isSuccess hending hsuccess
    rw [hmembers] at hprinted
    rw [← hfiles] at hwritten
    exact ⟨⟨_, _, _, _, _, accepted, configured, loaded, built, hwritten, hprinted⟩⟩

/-! ### The build of the run -/

variable (run : DumpRun environment arguments files report)

def output : Path :=
  environment.directory.resolve run.config.output

theorem exists_config : ∃ base, Config.load files environment.directory run.input.config? = .ok base ∧
    run.config = base.override run.input.overrides := by
  have hconfigured := run.configured
  cases hload : Config.load files environment.directory run.input.config? with
  | error failure =>
    rw [hload] at hconfigured
    cases hconfigured
  | ok base =>
    rw [hload] at hconfigured
    exact ⟨base, rfl, (Except.ok.inj hconfigured).symm⟩

def graph : Graph :=
  run.progress.graph

def engine : Engine Demangler :=
  Dump.engine environment.tools run.input.useTools run.snapshot

def tell : BuildEvent → Demangler → Demangler :=
  Dump.tell [("snapshot", .string (environment.directory.resolve run.input.snapshot).toText)]

def start : Demangler :=
  Dump.start environment.tools run.input.useTools run.snapshot run.config.abi

def addresses : List Address :=
  run.snapshot.functions.map FunctionEntry.start

theorem buildFrom_eq_ok :
    Graph.buildFrom run.engine run.config.filter run.config.abi run.tell run.addresses {} run.start
      = (.ok run.progress, run.state) := by
  have hbuilt := run.built
  rw [Dump.build_eq] at hbuilt
  exact hbuilt

variable {run}

theorem lengths_le {bound : Nat} {value : Json} {snapshot : Snapshot}
    (h : Snapshot.ofJson (some value) = .ok snapshot) (hwithin : Json.ArraysWithin bound value) :
    snapshot.functions.length ≤ bound ∧ snapshot.references.length ≤ bound := by
  obtain ⟨⟨members, rfl, hmembers⟩, -⟩ := Snapshot.ofJson_eq_ok_iff.1 h
  cases hwithin with
  | object hwithin =>
    constructor
    · obtain ⟨_, hmember, items, rfl, hitems⟩ := hmembers.functions
      cases hwithin _ (Json.Members.mem_of_get?_eq_some hmember) with
      | array hlength _ => exact hitems.length_eq ▸ hlength
    · rcases hmembers.references with ⟨-, hnone⟩ | ⟨_, hmember, items, rfl, hitems⟩
      · rw [hnone]
        exact Nat.zero_le _
      · cases hwithin _ (Json.Members.mem_of_get?_eq_some hmember) with
        | array hlength _ => exact hitems.length_eq ▸ hlength

theorem referencesTo_eq (address : Address) :
    run.engine.referencesTo address = .ok (run.snapshot.index.origins address) := rfl

/-- A function and a reference take a character of the snapshot each at least. -/
theorem length_le_maxUnits (run : DumpRun environment arguments files report) :
    run.snapshot.functions.length ≤ Text.maxUnits ∧
      run.snapshot.references.length ≤ Text.maxUnits := by
  obtain ⟨text, value, htext, hvalue, hsnapshot⟩ := FileSystem.load_eq_ok_iff.1 run.loaded
  obtain ⟨-, -, -, hfits⟩ := FileSystem.read?_eq_some_iff.1 htext
  obtain ⟨hfunctions, hreferences⟩ :=
    lengths_le hsnapshot (Json.arraysWithin_of_parseFile? hvalue)
  have hlength := Text.length_le_of_fits hfits
  exact ⟨hfunctions.trans hlength, hreferences.trans hlength⟩

end DumpRun

end CallGraph
