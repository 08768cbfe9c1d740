import CallGraph.Command.Basic
import CallGraph.Document.Lookup
import CallGraph.Json.Display
import CallGraph.Number.Reading

/-!
# The query and find commands

Both read a graph document: one looks a function up and answers with its callers, the other lists
the functions whose names start with a text.
-/

namespace CallGraph

open Schema

/-- The arguments of the query command. -/
structure QueryInput where
  name : String
  dump : String
  exact : Bool
  deriving DecidableEq, Repr, Inhabited

/-- The arguments of the find command. -/
structure FindInput where
  start : String
  dump : String
  limit : Number
  deriving DecidableEq, Repr, Inhabited

/-- The number that an argument counts as: a text is read freely, `null` and `false` are zero,
`true` is one, and an array counts as its text. There is none for a value that has no text. -/
def argumentNumber? : Json → Option Number
  | .null => some (.ofNat 0)
  | .bool flag => some (.ofNat (if flag then 1 else 0))
  | .number value => some value
  | .string text => Number.ofText? text.toList
  | .array items => (Json.array items).displayChars?.bind Number.ofText?
  | .object _ => none

/-- A limit: a positive integer, 200 when absent. -/
def checkLimit : Check Number
  | none => .ok (.ofNat 200)
  | some value =>
    match argumentNumber? value with
    | none => .refuse (.wrongType "number" "nan")
    | some number => .flawed number (Check.limitProblems number)

/-- The path of a document. -/
def checkDump : Check String :=
  Check.withDefault Config.outputName Check.string

namespace QueryInput

def check : Check QueryInput :=
  Check.object fun members =>
    QueryInput.mk
      <$> Check.field "name" (Check.nonEmptyString "Function name is required") members
      <*> Check.field "dump" checkDump members
      <*> Check.field "exact" (Check.withDefault false Check.bool) members

end QueryInput

namespace FindInput

def check : Check FindInput :=
  Check.object fun members =>
    FindInput.mk
      <$> Check.field "prefix" (Check.nonEmptyString "Prefix is required") members
      <*> Check.field "dump" checkDump members
      <*> Check.field "limit" checkLimit members

end FindInput

namespace Lookup

def dumpInvalid (path : Path) (error : LoadError) : Json.Members :=
  Answer.loadFailure "dump_invalid" "Run \"xref-graph dump <snapshot>\" to produce xref_data.json"
    [("dump", .string path.toText)] error

def notFound (path : Path) (name : String) : Json.Members :=
  Answer.failure "not_found"
    [("message", .string ("No entry for " ++ name)), ("dump", .string path.toText),
      ("hint", .string "Try \"xref-graph find <prefix>\" to list candidate names")]

def found (path : Path) (name : String) (hit : Document.Hit) : Json.Members :=
  Answer.success
    [("dump", .string path.toText), ("query", .string name), ("name", .string hit.key),
      ("matchedBy", .string hit.kind.name), ("CallCount", .number hit.entry.callCount),
      ("Usages", .strings hit.entry.usages)]

def query (environment : Environment) (input : QueryInput) (files : FileSystem) : Json.Members :=
  let path := environment.directory.resolve input.dump
  match Document.load files path with
  | .error error => dumpInvalid path error
  | .ok document =>
    match document.lookup? input.name input.exact with
    | some hit => found path input.name hit
    | none => notFound path input.name

def listing (item : Document.Listing) : Json :=
  .object [("name", .string item.name), ("callCount", .number item.callCount)]

def find (environment : Environment) (input : FindInput) (files : FileSystem) : Json.Members :=
  let path := environment.directory.resolve input.dump
  match Document.load files path with
  | .error error => dumpInvalid path error
  | .ok document =>
    let listings := document.find input.start (some input.limit)
    Answer.success
      [("dump", .string path.toText), ("prefix", .string input.start),
        ("count", .nat listings.length), ("matches", .array (listings.map listing))]

def queryCommand : Command := Command.reading QueryInput.check query

/-- Whether the limit among the arguments, if there is one, has the text without which it can not be
asked for a number. -/
def hasTellableLimit (arguments : Option Json) : Bool :=
  (arguments.bind (Json.get? "limit")).all fun limit => limit.display?.isSome

def findCommand : Command := fun environment arguments files =>
  if hasTellableLimit arguments then
    Command.reading FindInput.check find environment arguments files
  else ⟨.fault .withoutText, files, []⟩

end Lookup

end CallGraph
