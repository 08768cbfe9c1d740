import CallGraph.Document.Basic
import CallGraph.Filter
import CallGraph.Name.Canonical
import CallGraph.Name.Generic
import CallGraph.Name.Managed
import CallGraph.Number.Rounding

/-!
# Looking up functions in a document

A function is found under its canonical name, else under the metadata spelling of that, else among
the generic functions, all of whose instantiations count as one.
-/

namespace CallGraph

namespace Entry

/-- Takes in another entry: counts add up, and usages that are new go to the end. -/
def absorb (entry extra : Entry) : Entry where
  callCount := entry.callCount.add extra.callCount
  usages := entry.usages ++
    (extra.usages.filter fun usage => !entry.usages.contains usage).eraseDups

/-- The entry with every usage once. -/
def distinct (entry : Entry) : Entry :=
  { entry with usages := entry.usages.eraseDups }

end Entry

namespace Document

def get? (document : Document) (name : String) : Option Entry :=
  document.lookup name

/-- Adds an entry to what a document has under a name. -/
def add (name : String) (entry : Entry) : Document → Document
  | [] => [(name, entry.distinct)]
  | (present, old) :: rest =>
    if present = name then (present, old.absorb entry) :: rest
    else (present, old) :: add name entry rest

/-- Whether the name has a generic argument, going by its brackets. -/
def isGeneric (name : String) : Bool :=
  name.toList.contains '<' && name.toList.contains '>'

/-- The document of generic functions: all instantiations of one are a single entry under its
collapsed name. -/
def collapsed (document : Document) : Document :=
  (document.filter fun (name, _) => isGeneric name).foldl
    (fun (out : Document) (name, entry) => out.add (Name.collapsed name) entry) []

/-- How a function was found. -/
inductive MatchKind
  | exact
  | managed
  | generic
  deriving DecidableEq, Repr

def MatchKind.name : MatchKind → String
  | .exact => "exact"
  | .managed => "managed"
  | .generic => "generic"

structure Hit where
  key : String
  kind : MatchKind
  entry : Entry
  deriving DecidableEq, Repr

/-- Looks for a name as it stands. -/
def hit? (document : Document) (kind : MatchKind) (key : String) : Option Hit :=
  (document.get? key).map fun entry => ⟨key, kind, entry⟩

/-- The spelling of a canonical name that comes from metadata. -/
def managedSpelling (canonical : String) : String :=
  Name.ofGenerated (Name.fromMetadata canonical)

/-- The names under which a generic function may stand. -/
def genericCandidates (canonical managed : String) : List String :=
  [canonical, managed, Name.collapsed canonical, Name.collapsed managed]

/-- Looks a function up. An exact look-up takes the canonical name only. -/
def lookup? (document : Document) (query : String) (exact : Bool) : Option Hit :=
  let canonical := Name.canonical query
  let managed := managedSpelling canonical
  document.hit? .exact canonical <|>
    if exact then none
    else document.hit? .managed managed <|>
      (genericCandidates canonical managed).findSome? (document.collapsed.hit? .generic)

/-- A function in a listing. -/
structure Listing where
  name : String
  callCount : Number
  deriving DecidableEq, Repr

/-- The functions whose names start with a text, in the order of the document, up to a limit: one is
listed as long as there are fewer than that before it. -/
def find (document : Document) (start : String) (limit : Option Number) : List Listing :=
  let found := document.filter fun (name, _) => NameFilter.startsWith name start
  let listings := found.map fun (name, entry) => ⟨name, entry.callCount⟩
  match limit with
  | some limit => limit.takeBelow listings
  | none => listings

end Document

end CallGraph
