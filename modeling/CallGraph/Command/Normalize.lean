import CallGraph.Command.Basic
import CallGraph.Name.Canonical

/-!
# The normalize command

Tells the canonical form of names and whether the filter keeps them.
-/

namespace CallGraph

open Schema

/-- The arguments of the command. -/
structure NormalizeInput where
  names : List String
  config? : Option String
  deriving DecidableEq, Repr, Inhabited

/-- The word for the way in which an entry of the filter met a name. -/
def Reason.name : Reason → String
  | .atStart => "prefix"
  | .inside => "substring"

namespace NormalizeInput

/-- Names, of which there is at least one. -/
def checkNames : Check (List String) := fun value =>
  (Check.array Check.string value).refine fun names =>
    if names.isEmpty then [⟨[], .empty "At least one name is required"⟩] else []

def check : Check NormalizeInput :=
  Check.object fun members =>
    NormalizeInput.mk
      <$> Check.field "names" checkNames members
      <*> Check.field "config" (Check.optional Check.string) members

end NormalizeInput

namespace Normalize

/-- What is told of a name. -/
def describe (filter : NameFilter) (name : String) : Json :=
  let canonical := Name.canonical name
  let verdict := filter.verdict canonical
  let rejection := match verdict with
    | .accepted => []
    | .rejected reason entry => [("rejectedBy", .string reason.name), ("match", .string entry)]
  .object ([("input", .string name), ("canonical", .string canonical),
    ("accepted", .bool verdict.isAccepted)] ++ rejection)

def work (environment : Environment) (input : NormalizeInput) (files : FileSystem) :
    Json.Members :=
  match Config.load files environment.directory input.config? with
  | .error error => Answer.configInvalid error
  | .ok config =>
    Answer.success [("names", .array (input.names.map (describe config.filter)))]

def command : Command := Command.reading NormalizeInput.check work

end Normalize

end CallGraph
