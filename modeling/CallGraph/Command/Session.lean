import CallGraph.Command.Dump
import CallGraph.Command.Lookup
import CallGraph.Command.Normalize

/-!
# Running commands

A command is looked up by its name and run, and its answer is printed: a success on standard output
with status 0, and a failure on standard error with status 2. Arguments of the wrong form, unknown
commands and faults have status 1. Log lines go to standard error, in front of the answer.

What is printed has to fit a text. An answer that does not is a fault, and is reported as one; if
what is left to say does not fit, either, the run ends by that fault and without a status. A log
line, and any text that is made from one part of a file, an argument or a reply, is taken to fit, and
memory and stack are taken to suffice.
-/

namespace CallGraph

open Schema

/-- How a run ends: with a status, or by a fault that nothing is left to report. -/
inductive Exit
  | status (code : Nat)
  | fault (fault : Fault)
  deriving DecidableEq, Repr, Inhabited

/-- How a run ends, what it prints, the files it leaves and the tools it ran. -/
structure Report where
  exit : Exit
  stdout : String
  stderr : String
  files : FileSystem
  spawned : List Spawn
  deriving Repr, Inhabited

/-- Commands by name. -/
abbrev CommandTable := List (String × Command)

namespace CommandTable

def standard : CommandTable :=
  [("dump", Dump.command), ("query", Lookup.queryCommand), ("find", Lookup.findCommand),
    ("normalize", Normalize.command)]

/-- Names that a table never leaves free: each has a meaning of its own there, which is no command
and fails when it is run as one. -/
def reserved : List String :=
  ["constructor", "hasOwnProperty", "isPrototypeOf", "propertyIsEnumerable", "toLocaleString",
    "toString", "valueOf", "__proto__", "__defineGetter__", "__defineSetter__", "__lookupGetter__",
    "__lookupSetter__"]

/-- What comes of running a reserved name. -/
def reservedCommand : Command := fun _ _ files =>
  ⟨.fault (.error "TypeError" "handler.run is not a function"), files, []⟩

def find? (table : CommandTable) (name : String) : Option Command :=
  match table.lookup name with
  | some command => some command
  | none => if reserved.contains name then some reservedCommand else none

end CommandTable

namespace Session

/-- A JSON object over several lines, with a line end. -/
def printed (members : Json.Members) : String :=
  (Json.object members).pretty ++ "\n"

def issueJson (issue : Issue) : Json :=
  .object [("path", .string issue.place), ("message", .string issue.problem.message),
    ("code", .string issue.problem.code)]

/-- An answer with the command, the time and the duration, which take the places of members of these
names. -/
def stamped (environment : Environment) (command : String) (members : Json.Members) :
    Json.Members :=
  Json.Members.merge (Json.Members.merge [] members)
    [("command", .string command), ("timestamp", .string environment.stamp),
      ("duration_ms", .nat 0)]

def validationError (environment : Environment) (command : String) (issues : List Issue) :
    Json.Members :=
  [("ok", .bool false), ("reason", .string "validation_error"),
    ("message", .string "Invalid command arguments"), ("command", .string command),
    ("timestamp", .string environment.stamp), ("duration_ms", .nat 0),
    ("errors", .array (issues.map issueJson)), ("hint", .string "Check command syntax with --help")]

def internalError (environment : Environment) (command : String) (fault : Fault) : Json.Members :=
  [("ok", .bool false), ("reason", .string "internal_error"), ("message", .string fault.message),
    ("command", .string command), ("timestamp", .string environment.stamp),
    ("duration_ms", .nat 0),
    ("hint", .string "An unexpected error occurred. Check logs for details.")]

def unknownCommand (environment : Environment) (command : String) : Json.Members :=
  [("ok", .bool false), ("reason", .string "unknown_command"), ("command", .string command),
    ("timestamp", .string environment.stamp),
    ("hint", .string "Run \"xref-graph --help\" to see available commands")]

def faultRecord (command : String) (fault : Fault) : Log.Record :=
  ⟨.error, command, ("ok", .bool false) :: fault.fields⟩

def logger (environment : Environment) (command : String) : Log.Logger :=
  ⟨environment.stamp, [("component", .string "cli"), ("cmd", .string command)],
    environment.threshold⟩

def logLines (logger : Log.Logger) (trace : List Trace) : String :=
  String.join (trace.map fun event =>
    match event with
    | .spawned _ => ""
    | .logged record => logger.line record)

def spawns (trace : List Trace) : List Spawn :=
  trace.filterMap fun event =>
    match event with
    | .spawned spawn => some spawn
    | .logged _ => none

/-- Whether a document is short enough to be printed, with its line end. -/
def isPrintable (members : Json.Members) : Bool :=
  (Json.object members).prettySize 0 + 1 ≤ Text.maxUnits

/-- The report of what goes wrong: its document stands behind the log. If the document can not be
printed, the run ends by that. -/
def failed (environment : Environment) (command : String) (trace : List Trace) (files : FileSystem)
    (status : Nat) (document : Json.Members) : Report :=
  let log := logLines (logger environment command) trace
  if isPrintable document then
    ⟨.status status, "", log ++ printed document, files, spawns trace⟩
  else ⟨.fault .tooLong, "", log, files, spawns trace⟩

/-- The report of a fault. One that can not be told ends the run. -/
def broken (environment : Environment) (command : String) (trace : List Trace) (files : FileSystem)
    (fault : Fault) : Report :=
  if fault.isTellable then
    failed environment command (trace ++ [.logged (faultRecord command fault)]) files 1
      (internalError environment command fault)
  else ⟨.fault .withoutText, "", logLines (logger environment command) trace, files, spawns trace⟩

/-- The report of an answer. One that can not be printed is a fault. -/
def answered (environment : Environment) (command : String) (trace : List Trace)
    (files : FileSystem) (members : Json.Members) : Report :=
  let document := stamped environment command members
  if isPrintable document then
    if Answer.isSuccess members then
      ⟨.status 0, printed document, logLines (logger environment command) trace, files,
        spawns trace⟩
    else failed environment command trace files 2 document
  else broken environment command trace files .tooLong

def report (environment : Environment) (command : String) (run : Run) : Report :=
  match run.ending with
  | .answer members => answered environment command run.trace run.files members
  | .invalid issues =>
    failed environment command run.trace run.files 1 (validationError environment command issues)
  | .fault fault => broken environment command run.trace run.files fault

def run (table : CommandTable) (environment : Environment) (command : String)
    (arguments : Option Json) (files : FileSystem) : Report :=
  match table.find? command with
  | none => failed environment command [] files 1 (unknownCommand environment command)
  | some work => report environment command (work environment arguments files)

end Session

end CallGraph
