import CallGraph.Proofs.Command.DumpRun
import CallGraph.Proofs.Demangler.Knowing
import CallGraph.Proofs.Snapshot.Asking

/-!
# One batch for a dump

A build gives its demangler only symbols that functions bear, and all of these on which the tables
are silent have been asked about before. So the build runs no tool, and a dump runs each of its tools
once at most.
-/

namespace CallGraph

open Session (spawns)

namespace Snapshot

variable {snapshot : Snapshot}

/-- A demangler that has been asked, before all else, about the symbols on which the tables are
silent. -/
def primed (snapshot : Snapshot) (commands : List String) (tools : Toolbox) (abi : Abi) :
    Demangler :=
  (Demangler.fresh commands).askAhead tools (snapshot.symbolsToAsk abi) abi

theorem bears_of_names {σ : Type} {fallback : String → Abi → Query σ (Option String)}
    (hwf : snapshot.WellFormed) {symbol : String}
    (h : (snapshot.index.engine fallback).Names symbol) : snapshot.Bears symbol := by
  obtain ⟨-, address, hraw | haround⟩ := h
  · have hfound : snapshot.index.symbolAt address = some symbol := Except.ok.inj hraw
    obtain ⟨entry, hentry, hname⟩ := Option.bind_eq_some_iff.1 hfound
    exact ⟨entry, List.mem_of_find?_eq_some hentry, hname⟩
  · have hfound : snapshot.index.symbolAround address = some symbol := Except.ok.inj haround
    obtain ⟨entry, hentry, hname⟩ := Option.bind_eq_some_iff.1 hfound
    exact ⟨entry, ((covering_eq_some_iff hwf).1 hentry).mem, hname⟩

/-- A fallback that keeps its state on the symbols of functions makes an engine that does so. -/
theorem engine_guards {σ : Type} {fallback : String → Abi → Query σ (Option String)}
    {kept : σ → Prop} {abi : Abi} (hwf : snapshot.WellFormed)
    (h : ∀ symbol ∈ snapshot.symbolsToAsk abi, (fallback symbol abi).Guards kept fun _ => False) :
    (snapshot.index.engine fallback).Guards abi kept fun _ => False where
  isCode _ _ hfault := nomatch hfault
  rawSymbol _ _ hfault := nomatch hfault
  referencesTo _ _ hfault := nomatch hfault
  enclosingSymbol _ _ hfault := nomatch hfault
  demangle := by
    intro symbol hsymbol
    simp only [SnapshotIndex.engine, index]
    split
    · exact Query.guards_pure _
    · next hsilent =>
      exact h symbol (mem_symbolsToAsk_iff.2 ⟨hsymbol.1, hsilent, bears_of_names hwf hsymbol⟩)

theorem settles_primed (commands : List String) (tools : Toolbox) {abi : Abi} {symbol : String}
    (hsymbol : symbol ∈ snapshot.symbolsToAsk abi) :
    (snapshot.primed commands tools abi).Settles symbol abi := by
  rintro rfl hitanium
  exact Demangler.knows_askAhead _ tools hsymbol hitanium

theorem build_hasLogged {fallback : String → Abi → Query Demangler (Option String)}
    {start : Demangler} {abi : Abi} (hwf : snapshot.WellFormed)
    (h : ∀ symbol ∈ snapshot.symbolsToAsk abi,
      (fallback symbol abi).Guards start.HasLogged fun _ => False)
    (filter : NameFilter) (record : BuildEvent → Log.Record) :
    ∃ progress final, Graph.build (snapshot.index.engine fallback) filter abi
        (fun event state => state.note [.logged (record event)]) start = (.ok progress, final) ∧
      start.HasLogged final := by
  have htell : ∀ event state, start.HasLogged state →
      start.HasLogged (state.note [.logged (record event)]) :=
    fun event _ hstate => hstate.note (record event)
  exact Graph.buildFrom_guards (engine_guards hwf h) (fun _ hfault => hfault.elim) htell _ {}
    start.hasLogged_self

/-- What is known beforehand is all that a build needs, whatever tools may do later. -/
theorem build_primed (hwf : snapshot.WellFormed) (commands : List String)
    (tools later : Toolbox) (abi : Abi) (filter : NameFilter) (record : BuildEvent → Log.Record) :
    ∃ progress final, Graph.build (snapshot.index.engine (Demangler.query later)) filter abi
        (fun event state => state.note [.logged (record event)])
        (snapshot.primed commands tools abi) = (.ok progress, final) ∧
      (snapshot.primed commands tools abi).HasLogged final := by
  refine build_hasLogged hwf (fun symbol hsymbol => ?_) filter record
  refine Demangler.query_guards ?_ later
  rintro _ ⟨records, rfl⟩
  exact settles_primed commands tools hsymbol

end Snapshot

/-! ### Dumps -/

namespace Dump

theorem spawns_start (tools : Toolbox) (useTools : Bool) (snapshot : Snapshot) (abi : Abi) :
    (spawns (start tools useTools snapshot abi).trace).map Spawn.command <+:
      Demangler.defaultCommands := by
  cases useTools with
  | false => exact List.nil_prefix
  | true =>
    obtain ⟨tried, hprefix, -, hspawns⟩ := Demangler.exists_spawns_askAhead tools
      Demangler.defaultCommands (snapshot.symbolsToAsk abi) abi
    show (spawns ((Demangler.fresh Demangler.defaultCommands).askAhead tools
      (snapshot.symbolsToAsk abi) abi).trace).map Spawn.command <+: _
    rw [hspawns, List.map_map]
    exact (List.map_id' tried).symm ▸ hprefix

theorem build_hasLogged {snapshot : Snapshot} (hwf : snapshot.WellFormed) (tools : Toolbox)
    (useTools : Bool) (context : Json.Members) (config : Config) :
    ∃ progress final, build tools useTools context config snapshot = (.ok progress, final) ∧
      (start tools useTools snapshot config.abi).HasLogged final := by
  rw [build_eq]
  cases useTools with
  | false =>
    exact Snapshot.build_hasLogged hwf (fun _ _ => Query.guards_pure none) config.filter
      (BuildEvent.record context)
  | true =>
    exact Snapshot.build_primed hwf Demangler.defaultCommands tools tools config.abi config.filter
      (BuildEvent.record context)

theorem wellFormed_of_load {files : FileSystem} {path : Path} {snapshot : Snapshot}
    (h : Snapshot.load files path = .ok snapshot) : snapshot.WellFormed := by
  obtain ⟨_, _, -, -, hsnapshot⟩ := FileSystem.load_eq_ok_iff.1 h
  exact Snapshot.wellFormed_of_ofJson hsnapshot

theorem spawns_finish (files : FileSystem) (snapshot output : Path) (config : Config)
    (progress : Graph.Progress) (trace : List Trace) :
    spawns (finish files snapshot output config progress trace).trace = spawns trace := by
  unfold finish
  dsimp only
  split <;> exact (Demangler.spawns_append trace _).trans (List.append_nil _)

theorem finish_ne_fault (files : FileSystem) (snapshot output : Path) (config : Config)
    (progress : Graph.Progress) (trace : List Trace) (fault : Fault) :
    (finish files snapshot output config progress trace).ending ≠ .fault fault := by
  unfold finish
  dsimp only
  split <;> exact fun h => nomatch h

/-- A run that ends without a fault and has run tools in order, each at most once. -/
structure RunsInOrder (run : Run) : Prop where
  spawns : (Session.spawns run.trace).map Spawn.command <+: Demangler.defaultCommands
  ending : ∀ fault, run.ending ≠ .fault fault

theorem runsInOrder_command (environment : Environment) (arguments : Option Json)
    (files : FileSystem) : RunsInOrder (command environment arguments files) := by
  have hcourse := course_command environment arguments files
  generalize command environment arguments files = run at hcourse
  cases hcourse with
  | refused issues => exact ⟨List.nil_prefix, fun _ h => nomatch h⟩
  | unconfigured error => exact ⟨List.nil_prefix, fun _ h => nomatch h⟩
  | unloaded path error => exact ⟨List.nil_prefix, fun _ h => nomatch h⟩
  | faulted loaded built =>
    obtain ⟨progress, final, hbuild, -⟩ :=
      build_hasLogged (wellFormed_of_load loaded) environment.tools _ _ _
    cases built.symm.trans hbuild
  | finished accepted configured loaded built =>
    obtain ⟨progress, final, hbuild, hfinal⟩ :=
      build_hasLogged (wellFormed_of_load loaded) environment.tools _ _ _
    cases built.symm.trans hbuild
    refine ⟨?_, finish_ne_fault _ _ _ _ _ _⟩
    rw [spawns_finish, hfinal.spawns_eq]
    exact spawns_start _ _ _ _

theorem spawned_run (environment : Environment) (arguments : Option Json) (files : FileSystem) :
    (Session.run .standard environment "dump" arguments files).spawned.map Spawn.command <+:
      Demangler.defaultCommands := by
  have hspawned : (Session.run .standard environment "dump" arguments files).spawned =
      spawns (command environment arguments files).trace :=
    (Session.files_report environment "dump" _).2
  exact hspawned ▸ (runsInOrder_command environment arguments files).spawns

end Dump

namespace Snapshot

/-- Tools are run for one batch only. The batch holds the symbols on which the table is silent, and
is given to the first tools in order; the build then answers from what is known, so that a dump runs
each of its tools once at most. -/
theorem tools_run_once {value : Option Json} {snapshot : Snapshot}
    (h : ofJson value = .ok snapshot) (commands : List String) (tools : Toolbox) (abi : Abi) :
    ∃ batch tried, snapshot.IsBatch batch ∧ tried <+: commands ∧
      (tried = [] ↔ abi ≠ .itanium ∨ batch = [] ∨ commands = []) ∧
      spawns (snapshot.primed commands tools abi).trace =
        tried.map (fun command => ⟨command, Demangler.batchInput batch⟩) ∧
      (∀ (later : Toolbox) (filter : NameFilter) (record : BuildEvent → Log.Record),
        ∃ progress, ∃ records : List Log.Record, Graph.build (snapshot.index.engine (Demangler.query later)) filter abi
            (fun event state => state.note [.logged (record event)])
            (snapshot.primed commands tools abi) =
          (.ok progress, (snapshot.primed commands tools abi).note (records.map .logged))) ∧
      ∀ environment arguments files,
        (Session.run .standard environment "dump" arguments files).spawned.map Spawn.command <+:
          Demangler.defaultCommands := by
  have hwf := wellFormed_of_ofJson h
  obtain ⟨tried, hprefix, htried, hspawns⟩ :=
    Demangler.exists_spawns_askAhead tools commands (snapshot.symbolsToAsk abi) abi
  refine ⟨_, tried, isBatch_pending hwf commands, hprefix, ?_, ?_, ?_, Dump.spawned_run⟩
  · by_cases habi : abi = .itanium
    · exact habi ▸ htried
    · exact iff_of_true (htried.2 (.inl habi)) (.inl habi)
  · by_cases habi : abi = .itanium
    · exact habi ▸ hspawns
    · obtain rfl := htried.2 (.inl habi)
      exact hspawns
  · intro later filter record
    obtain ⟨progress, final, hbuild, records, rfl⟩ :=
      build_primed hwf commands tools later abi filter record
    exact ⟨progress, records, hbuild⟩

/-- A snapshot with two symbols to be asked, one of which two functions bear. The table says of a
third that it does not demangle. -/
def silentValue : Json :=
  .object
    [("functions", .array
      [.object [("start", .nat 48), ("name", .string "_Z3runv")],
        .object [("start", .nat 16), ("name", .string "_Z4initv")],
        .object [("start", .nat 32), ("name", .string "main")],
        .object [("start", .nat 64), ("name", .string "_Z3runv")],
        .object [("start", .nat 80), ("name", .string "_ZTV4Game")]]),
      ("demangled", .object [("itanium", .object [("_ZTV4Game", .null)])])]

def silent : Snapshot :=
  ⟨[⟨48, none, some "_Z3runv", true⟩, ⟨16, none, some "_Z4initv", true⟩,
      ⟨32, none, some "main", true⟩, ⟨64, none, some "_Z3runv", true⟩,
      ⟨80, none, some "_ZTV4Game", true⟩],
    [], [("itanium", [("_ZTV4Game", none)])]⟩

theorem isBatch_silent : silent.IsBatch ["_Z4initv", "_Z3runv"] := by
  refine ⟨by decide, fun symbol => ⟨?_, ?_⟩, ?_⟩
  · revert symbol
    simp only [List.forall_mem_cons, Bears]
    decide
  · rintro ⟨hitanium, hsilent, entry, hentry, hname⟩
    simp only [silent, List.mem_cons, List.not_mem_nil, or_false] at hentry
    rcases hentry with rfl | rfl | rfl | rfl | rfl
    all_goals
      cases hname
      revert hitanium hsilent
      decide
  · refine .cons ?_ (List.pairwise_singleton _ _)
    decide

theorem tools_run_once_silent :
    ofJson (some silentValue) = .ok silent ∧
      spawns (silent.primed ["c++filt"] .empty .itanium).trace =
        [⟨"c++filt", "_Z4initv\n_Z3runv\n"⟩] ∧
      ∃ progress, ∃ records : List Log.Record,
        Graph.build (silent.index.engine (Demangler.query .empty)) ⟨[], []⟩ .itanium
            (fun event state => state.note [.logged (event.record [])])
            (silent.primed ["c++filt"] .empty .itanium) =
          (.ok progress, (silent.primed ["c++filt"] .empty .itanium).note (records.map .logged)) := by
  have haccepted : ofJson (some silentValue) = .ok silent := by decide +kernel
  obtain ⟨batch, tried, hbatch, ⟨others, hprefix⟩, htried, hspawns, hbuild, -⟩ :=
    tools_run_once haccepted ["c++filt"] .empty .itanium
  obtain rfl := hbatch.unique isBatch_silent
  refine ⟨haccepted, ?_, hbuild .empty ⟨[], []⟩ (BuildEvent.record [])⟩
  cases tried with
  | nil => exact absurd (htried.1 rfl) (by decide)
  | cons first rest =>
    obtain ⟨rfl, hrest⟩ := List.cons.inj hprefix
    obtain ⟨rfl, -⟩ := List.append_eq_nil_iff.1 hrest
    exact hspawns

end Snapshot

end CallGraph
