import CallGraph.Graph.Basic
import CallGraph.Schema.Checked

/-!
# Graph documents

A call graph is kept in a file as one JSON object, with an entry for each function under its name.
Reading it back gives the entries in the order of the object's members.
-/

namespace CallGraph

/-- What a document says of a function: how often it is called, and by whom. -/
structure Entry where
  callCount : Number
  usages : List String
  deriving DecidableEq, Repr, Inhabited

/-- Entries under distinct names. -/
abbrev Document := List (String × Entry)

namespace Entry

open Schema

def ofRecord (record : CallRecord) : Entry :=
  ⟨record.callCount, record.callers⟩

def toJson (entry : Entry) : Json :=
  .object [("CallCount", .number entry.callCount), ("Usages", .strings entry.usages)]

/-- A count: a non-negative integer. -/
def checkCount : Check Number := fun value =>
  (Check.number value).refine fun n => (Check.countProblems n).map fun problem => ⟨[], problem⟩

def check : Check Entry :=
  Check.object fun members =>
    Entry.mk
      <$> Check.field "CallCount" checkCount members
      <*> Check.field "Usages" (Check.array Check.string) members

end Entry

namespace Document

open Schema

/-- Reads a document, or tells all that is wrong with it. A value that is absent is wrong, too. -/
def ofJson (value : Option Json) : Except (List Issue) Document :=
  (Check.entries Entry.check value).toExcept

def ofGraph (graph : Graph) : Document :=
  graph.records.map fun record => (record.name, .ofRecord record)

end Document

end CallGraph
