import CallGraph.Snapshot.Basic
import CallGraph.Text.Pattern

/-!
# Answering queries from a snapshot

The functions of a snapshot may nest and overlap in any way. An address belongs to the function
around it that starts last. To find it, the functions are put in order of their starts, each with
the furthest end up to it: a binary search gives the last one that starts at or before the address,
and from there the search goes back for as long as an end lies behind the address.
-/

namespace CallGraph

/-- A function in the order of starts, with the furthest end of it and all before it. -/
structure Slot where
  entry : FunctionEntry
  reach : Address
  deriving DecidableEq, Repr, Inhabited

namespace Slot

/-- Pairs functions with the furthest ends so far. -/
def ofSorted : Address → List FunctionEntry → List Slot
  | _, [] => []
  | reach, entry :: rest =>
    let reach := max reach entry.stop
    ⟨entry, reach⟩ :: ofSorted reach rest

/-- Halves the range from `low` to `high` until it gives the number of slots that start at or before
the address: all below `low` do, and none from `high` on. -/
def countFrom (slots : Array Slot) (address : Address) (low high : Nat) : Nat :=
  if low < high then
    let middle := (low + high) / 2
    match slots[middle]? with
    | some slot =>
      if slot.entry.start ≤ address then countFrom slots address (middle + 1) high
      else countFrom slots address low middle
    | none => low
  else low
termination_by high - low

/-- The number of slots that start at or before the address. -/
def countStarted (slots : Array Slot) (address : Address) : Nat :=
  countFrom slots address 0 slots.size

/-- The last of the first `n` functions that ends behind the address, which all of them start at or
before. The search ends where no earlier function reaches behind the address. -/
def lastCovering (slots : Array Slot) (address : Address) : Nat → Option FunctionEntry
  | 0 => none
  | n + 1 =>
    match slots[n]? with
    | some slot =>
      if slot.reach ≤ address then none
      else if address < slot.entry.stop then some slot.entry
      else lastCovering slots address n
    | none => none

end Slot

/-- A snapshot with its functions in the order of their starts. -/
structure SnapshotIndex where
  snapshot : Snapshot
  slots : Array Slot
  deriving Repr, Inhabited

namespace Snapshot

/-- The functions in the order of their starts. -/
def sortedFunctions (snapshot : Snapshot) : List FunctionEntry :=
  snapshot.functions.mergeSort fun a b => a.start ≤ b.start

/-- Prepares a snapshot for queries. No end of a function is as low as the reach to begin with. -/
def index (snapshot : Snapshot) : SnapshotIndex :=
  ⟨snapshot, (Slot.ofSorted (-1) snapshot.sortedFunctions).toArray⟩

/-- What the tables say about a symbol: nothing, that it does not demangle, or its text. -/
def tableEntry? (snapshot : Snapshot) (abi : Abi) (symbol : String) : Option (Option String) :=
  (snapshot.table? abi).bind fun table => table.lookup symbol

/-- The distinct function symbols on which the tables are silent, in the order of the starts. -/
def symbolsToAsk (snapshot : Snapshot) (abi : Abi) : List String :=
  let symbols := snapshot.sortedFunctions.filterMap fun entry => Text.nonEmpty entry.name?
  (symbols.filter fun symbol => (snapshot.tableEntry? abi symbol).isNone).eraseDups

end Snapshot

namespace SnapshotIndex

/-- The function to which an address belongs: of those around it the one that starts last. -/
def covering (index : SnapshotIndex) (address : Address) : Option FunctionEntry :=
  Slot.lastCovering index.slots address (Slot.countStarted index.slots address)

def isCode (index : SnapshotIndex) (address : Address) : Bool :=
  match index.covering address with
  | some entry => entry.code
  | none => false

/-- The symbol of the function that starts at the address. -/
def symbolAt (index : SnapshotIndex) (address : Address) : Option String :=
  (index.snapshot.functions.find? fun entry => entry.start == address).bind FunctionEntry.name?

/-- The symbol of the function to which the address belongs. -/
def symbolAround (index : SnapshotIndex) (address : Address) : Option String :=
  (index.covering address).bind FunctionEntry.name?

/-- The origins of the references to an address, in the order of the snapshot. -/
def origins (index : SnapshotIndex) (address : Address) : List Address :=
  let references := index.snapshot.references.filter fun reference => reference.target == address
  references.map Reference.source

/-- The snapshot as an engine. Symbols on which the tables are silent go to the fallback. -/
def engine {σ : Type} (index : SnapshotIndex) (fallback : String → Abi → Query σ (Option String)) :
    Engine σ where
  functions := .ok (index.snapshot.functions.map FunctionEntry.start)
  isCode address := .ok (index.isCode address)
  rawSymbol address := .ok (index.symbolAt address)
  referencesTo address := .ok (index.origins address)
  enclosingSymbol address := .ok (index.symbolAround address)
  demangle symbol abi :=
    match index.snapshot.tableEntry? abi symbol with
    | some entry => return entry
    | none => fallback symbol abi

end SnapshotIndex

end CallGraph
