import CallGraph.Engine
import CallGraph.Filter
import CallGraph.Graph.Basic
import CallGraph.Name.Canonical
import CallGraph.Text.CodePoint

/-!
# Building a call graph

The functions of an engine are taken one after another. A function is recorded under its canonical
name with the canonical names of its callers, or it is skipped for one of five reasons, or a fault
ends the work on it; each outcome is counted, so that the counts add up to the number of functions.
A fault never ends the build, unless it can not be told.
-/

namespace CallGraph

inductive Skip
  | notCode
  | noSymbol
  | qualifiedSymbol
  | demangleFailed
  | rejectedByFilter
  deriving DecidableEq, Repr

structure Stats where
  functions : Nat := 0
  recorded : Nat := 0
  skippedNotCode : Nat := 0
  skippedNoSymbol : Nat := 0
  skippedQualifiedSymbol : Nat := 0
  skippedDemangleFailed : Nat := 0
  rejectedByFilter : Nat := 0
  droppedCallers : Nat := 0
  errors : Nat := 0
  collisions : Nat := 0
  deriving DecidableEq, Repr, Inhabited

namespace Stats

def skip (stats : Stats) : Skip → Stats
  | .notCode => { stats with skippedNotCode := stats.skippedNotCode + 1 }
  | .noSymbol => { stats with skippedNoSymbol := stats.skippedNoSymbol + 1 }
  | .qualifiedSymbol => { stats with skippedQualifiedSymbol := stats.skippedQualifiedSymbol + 1 }
  | .demangleFailed => { stats with skippedDemangleFailed := stats.skippedDemangleFailed + 1 }
  | .rejectedByFilter => { stats with rejectedByFilter := stats.rejectedByFilter + 1 }

end Stats

/-- What came of one function. -/
inductive Outcome
  | recorded (record : CallRecord) (dropped : Nat)
  | skipped (reason : Skip)
  deriving Repr

/-- What a build has to tell: a function on which the work failed, or a name that two functions
share. -/
inductive BuildEvent
  | failed (address : Address) (fault : Fault)
  | collision (name : String) (address : Address) (replaced : Number)
  deriving Repr

namespace Graph

variable {σ : Type}

/-- The canonical name of a symbol, if it can be demangled. -/
def canonicalName? (engine : Engine σ) (abi : Abi) (symbol : String) : Query σ (Option String) := do
  let demangled ← engine.demangle symbol abi
  return (Text.nonEmpty demangled).map Name.canonical

/-- The canonical name of the function from which a reference starts, if that is code and has a name
that can be demangled. -/
def callerName? (engine : Engine σ) (abi : Abi) (origin : Address) : Query σ (Option String) := do
  if ← Query.ofExcept (engine.isCode origin) then
    match Text.nonEmpty (← Query.ofExcept (engine.enclosingSymbol origin)) with
    | some symbol => canonicalName? engine abi symbol
    | none => return none
  else
    return none

/-- The caller names of a list of origins, one for each origin that has one. -/
def callerNames (engine : Engine σ) (abi : Abi) : List Address → Query σ (List String)
  | [] => return []
  | origin :: rest => do
    let name ← callerName? engine abi origin
    let names ← callerNames engine abi rest
    return name.toList ++ names

/-- The names of the callers of an address, in the order of the references to it. -/
def callers (engine : Engine σ) (abi : Abi) (target : Address) : Query σ (List String) := do
  callerNames engine abi (← Query.ofExcept (engine.referencesTo target))

/-- Works on one function. A symbol that holds `::` is a label inside another function. -/
def outcome (engine : Engine σ) (filter : NameFilter) (abi : Abi) (address : Address) :
    Query σ Outcome := do
  if ← Query.ofExcept (engine.isCode address) then
    match Text.nonEmpty (← Query.ofExcept (engine.rawSymbol address)) with
    | none => return .skipped .noSymbol
    | some symbol =>
      if Text.occursIn "::".toList symbol.toList then
        return .skipped .qualifiedSymbol
      else
        match ← canonicalName? engine abi symbol with
        | none => return .skipped .demangleFailed
        | some name =>
          if filter.accepts name then
            let collected ← callers engine abi address
            let kept := Text.sortByCodePoint (collected.filter filter.accepts)
            return .recorded ⟨name, .ofNat kept.length, kept⟩ (collected.length - kept.length)
          else
            return .skipped .rejectedByFilter
  else
    return .skipped .notCode

/-- What a build has made so far. -/
structure Progress where
  graph : Graph := .empty
  stats : Stats := {}
  deriving Inhabited

/-- Takes in what came of one function, and tells of a fault or a collision. -/
def Progress.advance (progress : Progress) (address : Address) :
    Except Fault Outcome → Progress × Option BuildEvent
  | .error fault =>
    ({ progress with stats := { progress.stats with errors := progress.stats.errors + 1 } },
      some (.failed address fault))
  | .ok (.skipped reason) => ({ progress with stats := progress.stats.skip reason }, none)
  | .ok (.recorded record dropped) =>
    let stats := { progress.stats with
      recorded := progress.stats.recorded + 1
      droppedCallers := progress.stats.droppedCallers + dropped }
    match progress.graph.get? record.name with
    | none => (⟨progress.graph.set record, stats⟩, none)
    | some previous =>
      (⟨progress.graph.set record, { stats with collisions := stats.collisions + 1 }⟩,
        some (.collision record.name address previous.callCount))

/-- Counts that work on a function begins. -/
def Progress.enter (progress : Progress) : Progress :=
  { progress with stats := { progress.stats with functions := progress.stats.functions + 1 } }

/-- Whether a build goes on after what came of one function: a fault has to be told. -/
def goesOn : Except Fault Outcome → Bool
  | .error fault => fault.isTellable
  | .ok _ => true

/-- Takes in what came of one function, with the state in which the work on it ended; `tell` puts an
event into the state. -/
def takeIn (tell : BuildEvent → σ → σ) (progress : Progress) (address : Address)
    (turn : Except Fault Outcome × σ) : Progress × σ :=
  let (progress, event) := progress.enter.advance address turn.1
  match event with
  | some event => (progress, tell event turn.2)
  | none => (progress, turn.2)

/-- Works through the functions at the addresses. -/
def buildFrom (engine : Engine σ) (filter : NameFilter) (abi : Abi) (tell : BuildEvent → σ → σ) :
    List Address → Progress → σ → Except Fault Progress × σ
  | [], progress, state => (.ok progress, state)
  | address :: rest, progress, state =>
    let turn := (outcome engine filter abi address).runFrom state
    if goesOn turn.1 then
      let (progress, state) := takeIn tell progress address turn
      buildFrom engine filter abi tell rest progress state
    else (.error .withoutText, turn.2)

/-- Builds the graph of all functions of an engine. It fails where the functions can not be listed
or a fault can not be told. -/
def build (engine : Engine σ) (filter : NameFilter) (abi : Abi) (tell : BuildEvent → σ → σ)
    (state : σ) : Except Fault Progress × σ :=
  match engine.functions with
  | .error fault => (.error fault, state)
  | .ok addresses => buildFrom engine filter abi tell addresses {} state

end Graph

end CallGraph
