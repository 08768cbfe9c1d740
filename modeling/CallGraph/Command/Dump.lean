import CallGraph.Command.Basic
import CallGraph.Document.Render
import CallGraph.Graph.Build
import CallGraph.Snapshot.Index

/-!
# The dump command

Builds the graph of a snapshot and writes its document. Symbols on which the snapshot is silent may
be given to external tools, all in one batch before the build.
-/

namespace CallGraph

open Schema

namespace Stats

def toJson (stats : Stats) : Json :=
  .object [("functions", .nat stats.functions), ("recorded", .nat stats.recorded),
    ("skippedNotCode", .nat stats.skippedNotCode), ("skippedNoSymbol", .nat stats.skippedNoSymbol),
    ("skippedQualifiedSymbol", .nat stats.skippedQualifiedSymbol),
    ("skippedDemangleFailed", .nat stats.skippedDemangleFailed),
    ("rejectedByFilter", .nat stats.rejectedByFilter),
    ("droppedCallers", .nat stats.droppedCallers), ("errors", .nat stats.errors),
    ("collisions", .nat stats.collisions)]

end Stats

/-- The record of an event of a build, with fields that tell which build it is. -/
def BuildEvent.record (context : Json.Members) : BuildEvent → Log.Record
  | .failed address fault =>
    ⟨.error, "xref_function_failed",
      Json.Members.merge context (("address", .string address.toText) :: fault.fields)⟩
  | .collision name address replaced =>
    ⟨.warn, "xref_name_collision",
      Json.Members.merge context [("name", .string name), ("address", .string address.toText),
        ("replacedCallCount", .number replaced)]⟩

/-- The arguments of the command. -/
structure DumpInput where
  snapshot : String
  config? : Option String
  abi? : Option Abi
  out? : Option String
  useTools : Bool
  deriving DecidableEq, Repr, Inhabited

namespace DumpInput

def check : Check DumpInput :=
  Check.object fun members =>
    DumpInput.mk
      <$> Check.field "snapshot" (Check.nonEmptyString "Snapshot path is required") members
      <*> Check.field "config" (Check.optional Check.string) members
      <*> Check.field "abi" (Check.optional ConfigFile.checkAbi) members
      <*> Check.field "out" (Check.optional ConfigFile.checkOutput) members
      <*> Check.field "cxxfilt" (Check.withDefault false Check.bool) members

def overrides (input : DumpInput) : Overrides :=
  { abi? := input.abi?, output? := input.out? }

end DumpInput

namespace Dump

def snapshotInvalid (path : Path) (error : LoadError) : Json.Members :=
  Answer.loadFailure "snapshot_invalid"
    ("Expected \x7b functions: [...], references: [...], " ++
      "demangled: \x7b <abi>: \x7b...\x7d \x7d \x7d with unique function starts; " ++
      "addresses above 2^53 - 1 must be rebased to the image base")
    [("snapshot", .string path.toText)] error

/-- What is said of a write that failed; what exactly went wrong stays open. -/
def writeError : String := "<os error>"

def writeFailed (output : Path) : Json.Members :=
  Answer.failure "write_failed"
    [("message", .string writeError), ("output", .string output.toText),
      ("hint", .string "Check that the output directory is writable or pass --out")]

def writeFault : WriteFailure → Fault
  | .tooLong => .error "RangeError" writeError
  | .invalidPath => .error "TypeError" writeError
  | .refused => .error "Error" writeError

def writeFailedRecord (output : Path) (failure : WriteFailure) : Log.Record :=
  ⟨.error, "xref_write_failed",
    ("output", .string output.toText) :: (writeFault failure).fields⟩

/-- What is common to the answer and the record of a success. -/
def summary (snapshot output : Path) (abi : Abi) (graph : Graph) (text : String) : Json.Members :=
  [("snapshot", .string snapshot.toText), ("output", .string output.toText),
    ("abi", .string abi.name), ("functions", .nat graph.size), ("bytes", .nat text.utf8ByteSize)]

def doneRecord (summary : Json.Members) (stats : Stats) : Log.Record :=
  ⟨.info, "xref_dump",
    ("ok", .bool true) :: summary ++ [("errors", .nat stats.errors), ("duration_ms", .nat 0)]⟩

/-- The demangler after a batch of all symbols on which the snapshot is silent. -/
def informed (tools : Toolbox) (snapshot : Snapshot) (abi : Abi) : Demangler :=
  (Demangler.fresh Demangler.defaultCommands).askAhead tools (snapshot.symbolsToAsk abi) abi

/-- Builds the graph of a snapshot; the state collects what happens on the way. Without tools no
symbol demangles on which the snapshot is silent. -/
def build (tools : Toolbox) (useTools : Bool) (context : Json.Members) (config : Config)
    (snapshot : Snapshot) : Except Fault Graph.Progress × Demangler :=
  let tell (event : BuildEvent) (state : Demangler) : Demangler :=
    state.note [.logged (event.record context)]
  let index := snapshot.index
  if useTools then
    Graph.build (index.engine (Demangler.query tools)) config.filter config.abi tell
      (informed tools snapshot config.abi)
  else
    Graph.build (index.engine fun _ _ => return none) config.filter config.abi tell
      (Demangler.fresh [])

def finish (files : FileSystem) (snapshot output : Path) (config : Config)
    (progress : Graph.Progress) (trace : List Trace) : Run :=
  let text := Document.render progress.graph
  match files.write output text with
  | (some failure, files) =>
    ⟨.answer (writeFailed output), files, trace ++ [.logged (writeFailedRecord output failure)]⟩
  | (none, files) =>
    let summary := summary snapshot output config.abi progress.graph text
    ⟨.answer (Answer.success (summary ++ [("stats", progress.stats.toJson)])), files,
      trace ++ [.logged (doneRecord summary progress.stats)]⟩

/-- Loads the configuration and the snapshot, builds the graph and writes it. -/
def work (environment : Environment) (input : DumpInput) (files : FileSystem) : Run :=
  let path := environment.directory.resolve input.snapshot
  match Config.load files environment.directory input.config? with
  | .error error => ⟨.answer (Answer.configInvalid error), files, []⟩
  | .ok config =>
    let config := config.override input.overrides
    match Snapshot.load files path with
    | .error error => ⟨.answer (snapshotInvalid path error), files, []⟩
    | .ok snapshot =>
      let context := [("snapshot", .string path.toText)]
      match build environment.tools input.useTools context config snapshot with
      | (.error fault, state) => ⟨.fault fault, files, state.trace⟩
      | (.ok progress, state) =>
        finish files path (environment.directory.resolve config.output) config progress state.trace

def command : Command := Command.checked DumpInput.check work

end Dump

end CallGraph
