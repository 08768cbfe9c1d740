import CallGraph.Demangler.Reply
import CallGraph.Engine
import CallGraph.Log.Logger

/-!
# Demangling through tools

A demangler asks its tools about symbols of the Itanium convention, many at once, and keeps every
answer. The tools are tried in order until one gives a usable reply. Once all of them have failed on
a batch, none is run again, and what is not known by then stays unknown.
-/

namespace CallGraph

/-- Something that happened while demangling. -/
inductive Trace
  | spawned (spawn : Spawn)
  | logged (record : Log.Record)
  deriving Repr

/-- The state of a demangler: its tools in the order of trial, the answers so far, whether the tools
have been given up, and all that happened. -/
structure Demangler where
  commands : List String
  cache : Answers
  givenUp : Bool
  trace : List Trace
  deriving Repr, Inhabited

namespace Demangler

/-- The tools that are tried when no others are named. -/
def defaultCommands : List String := ["llvm-cxxfilt", "c++filt"]

def fresh (commands : List String) : Demangler := ⟨commands, [], false, []⟩

def note (demangler : Demangler) (events : List Trace) : Demangler :=
  { demangler with trace := demangler.trace ++ events }

/-- The record of a command that could not be run or reports failure. -/
def failedRecord (command : String) (run : ToolRun) : Log.Record where
  level := .debug
  message := "cxxfilt_failed"
  fields :=
    let status := match run.status? with
      | some status => Json.int status
      | none => .null
    let failure := match run.failure? with
      | some failure => [("err", .string failure)]
      | none => []
    [("command", .string command), ("status", status)] ++ failure

/-- The record of a reply with the wrong number of lines. -/
def mismatchRecord (command : String) (expected : Nat) : Log.Record :=
  ⟨.warn, "cxxfilt_output_mismatch", [("command", .string command), ("expected", .nat expected)]⟩

/-- The record of giving up the tools. -/
def unavailableRecord (commands : List String) : Log.Record :=
  ⟨.warn, "cxxfilt_unavailable", [("commands", .strings commands)]⟩

/-- The input of a batch: its symbols, one a line. -/
def batchInput (symbols : List String) : String :=
  String.join (symbols.map fun symbol => symbol ++ "\n")

/-- Tries commands in order on a batch: the first usable reply, and what happened on the way. -/
def tryCommands (tools : Toolbox) (symbols : List String) :
    List String → Option Answers × List Trace
  | [] => (none, [])
  | command :: rest =>
    let spawn : Spawn := ⟨command, batchInput symbols⟩
    let run := tools spawn
    if run.succeeded then
      match Answers.ofReply? symbols run.output with
      | some answers => (some answers, [.spawned spawn])
      | none =>
        let (answers, events) := tryCommands tools symbols rest
        (answers, .spawned spawn :: .logged (mismatchRecord command symbols.length) :: events)
    else
      let (answers, events) := tryCommands tools symbols rest
      (answers, .spawned spawn :: .logged (failedRecord command run) :: events)

/-- Asks the tools about a batch, unless they have been given up. -/
def ask (demangler : Demangler) (tools : Toolbox) (symbols : List String) :
    Option Answers × Demangler :=
  if demangler.givenUp then (none, demangler)
  else
    match tryCommands tools symbols demangler.commands with
    | (some answers, events) => (some answers, demangler.note events)
    | (none, events) =>
      (none, { demangler.note (events ++ [.logged (unavailableRecord demangler.commands)]) with
        givenUp := true })

def knows (demangler : Demangler) (symbol : String) : Bool :=
  (demangler.cache.lookup symbol).isSome

/-- The distinct symbols of a batch that a tool could demangle and that are not known yet. -/
def pending (demangler : Demangler) (symbols : List String) : List String :=
  (symbols.filter fun symbol => isItaniumSymbol symbol && !demangler.knows symbol).eraseDups

/-- Keeps the answers for the symbols of a batch; what the answers leave out does not demangle. -/
def learn (demangler : Demangler) (symbols : List String) (answers : Option Answers) : Demangler :=
  let cache := symbols.foldl (fun (cache : Answers) symbol =>
    cache.set symbol ((answers.getD []).lookup symbol).join) demangler.cache
  { demangler with cache }

/-- Finds out about many symbols at once. -/
def askAhead (demangler : Demangler) (tools : Toolbox) (symbols : List String) (abi : Abi) :
    Demangler :=
  if abi = .itanium then
    let batch := demangler.pending symbols
    if batch.isEmpty then demangler
    else
      let (answers, demangler) := demangler.ask tools batch
      demangler.learn batch answers
  else demangler

/-- The text of a symbol, and the demangler after finding it out. -/
def demangle (demangler : Demangler) (tools : Toolbox) (symbol : String) (abi : Abi) :
    Option String × Demangler :=
  if abi = .itanium && isItaniumSymbol symbol then
    let demangler :=
      if demangler.knows symbol then demangler else demangler.askAhead tools [symbol] abi
    ((demangler.cache.lookup symbol).join, demangler)
  else (none, demangler)

def query (tools : Toolbox) (symbol : String) (abi : Abi) : Query Demangler (Option String) :=
  ExceptT.mk fun demangler =>
    let (text, demangler) := demangler.demangle tools symbol abi
    (.ok text, demangler)

end Demangler

end CallGraph
