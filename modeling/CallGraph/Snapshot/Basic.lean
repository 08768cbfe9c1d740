import CallGraph.Abi
import CallGraph.Engine

/-!
# Snapshots

A snapshot is the exported analysis database of one binary: its functions, the references between
addresses, and for each demangling convention a table from symbols to demangled text. In a table
`none` says that the symbol is known not to demangle.
-/

namespace CallGraph

/-- A function of the binary; its end is the first address behind it. -/
structure FunctionEntry where
  start : Address
  stop? : Option Address
  name? : Option String
  code : Bool
  deriving DecidableEq, Repr, Inhabited

structure Reference where
  source : Address
  target : Address
  deriving DecidableEq, Repr, Inhabited

/-- Demangled text by symbol. -/
abbrev DemangleTable := List (String × Option String)

structure Snapshot where
  functions : List FunctionEntry
  references : List Reference
  tables : List (String × DemangleTable)
  deriving DecidableEq, Repr, Inhabited

namespace FunctionEntry

/-- The first address behind the function; a function without a stated end takes one address. -/
def stop (entry : FunctionEntry) : Address :=
  entry.stop?.getD (entry.start + 1)

def covers (entry : FunctionEntry) (address : Address) : Bool :=
  entry.start ≤ address && address < entry.stop

end FunctionEntry

namespace Snapshot

def table? (snapshot : Snapshot) (abi : Abi) : Option DemangleTable :=
  snapshot.tables.lookup abi.name

end Snapshot

end CallGraph
