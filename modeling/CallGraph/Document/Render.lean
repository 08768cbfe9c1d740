import CallGraph.Document.Basic
import CallGraph.Json.Printer

/-!
# Writing graph documents

The document of a graph is put together record by record, in the order of the graph: each entry is
printed on its own, and its lines after the first are moved in to stand below its name. Names that
look like numbers keep their place, too, which an object built from them would not grant.
-/

namespace CallGraph.Document

/-- Moves all lines after the first in by two columns. -/
def indentTail (text : List Char) : List Char :=
  text.flatMap fun c => if c = '\n' then ['\n', ' ', ' '] else [c]

/-- The member of a record, moved in by two columns. -/
def memberChars (record : CallRecord) : List Char :=
  ' ' :: ' ' :: (Json.quote record.name ++ ": ".toList ++
    indentTail ((Entry.ofRecord record).toJson.prettyChars 0))

/-- The document of records, as characters. -/
def renderChars (records : List CallRecord) : List Char :=
  if records.isEmpty then ['\x7b', '\x7d']
  else
    '\x7b' :: '\n' :: ([',', '\n'].intercalate (records.map memberChars) ++ ['\n', '\x7d'])

def render (graph : Graph) : String :=
  String.ofList (renderChars graph.records)

end CallGraph.Document
