import CallGraph.Demangler.Batch
import CallGraph.FileSystem.Loading

/-!
# Commands

A command takes its arguments as JSON, reads files and perhaps writes one, and ends with an answer.
An answer is a JSON object whose member `ok` tells success from failure. What a command logs and the
tools that it runs are part of its outcome.
-/

namespace CallGraph

open Schema

/-- How a command ends: with an answer, with issues in its arguments, or by a fault. -/
inductive Ending
  | answer (members : Json.Members)
  | invalid (issues : List Issue)
  | fault (fault : Fault)
  deriving Repr, Inhabited

/-- What a command leaves behind. -/
structure Run where
  ending : Ending
  files : FileSystem
  trace : List Trace
  deriving Repr, Inhabited

/-- What commands find apart from files. The time is a short text. -/
structure Environment where
  directory : Path
  tools : Toolbox
  threshold : Option Log.Level
  stamp : String
  stamp_length_le : stamp.length ≤ 32 := by decide

/-- The work of a command on its arguments, which may be absent. -/
abbrev Command := Environment → Option Json → FileSystem → Run

namespace Answer

def success (data : Json.Members) : Json.Members :=
  Json.Members.merge [("ok", .bool true)] data

def failure (reason : String) (details : Json.Members) : Json.Members :=
  Json.Members.merge [("ok", .bool false), ("reason", .string reason)] details

def isSuccess (members : Json.Members) : Bool :=
  match Json.Members.get? "ok" members with
  | some value => value.isTruthy
  | none => false

/-- The answer to a document that could not be loaded; `place` names it. -/
def loadFailure (reason hint : String) (place : Json.Members) (error : LoadError) : Json.Members :=
  failure reason
    ([("message", .string error.message), ("issues", .strings error.issues)] ++ place ++
      [("hint", .string hint)])

def configInvalid (error : LoadError) : Json.Members :=
  loadFailure "config_invalid"
    "Config keys: excludedPrefixes, excludedSubstrings, abi, output, includeDefaults" [] error

end Answer

namespace Command

/-- A command that checks its arguments first. -/
def checked {α : Type} (check : Check α) (work : Environment → α → FileSystem → Run) : Command :=
  fun environment arguments files =>
    match (check arguments).toExcept with
    | .error issues => ⟨.invalid issues, files, []⟩
    | .ok input => work environment input files

/-- A command that only reads files and answers. -/
def reading {α : Type} (check : Check α)
    (work : Environment → α → FileSystem → Json.Members) : Command :=
  checked check fun environment input files => ⟨.answer (work environment input files), files, []⟩

end Command

end CallGraph
