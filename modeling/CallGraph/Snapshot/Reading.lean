import CallGraph.Snapshot.Address
import CallGraph.Snapshot.Basic

/-!
# Reading snapshots

A snapshot is accepted when every function, reference and table has the right form, every function
ends behind its start and no two functions start at one address. Members that a snapshot does not
know are passed over.
-/

namespace CallGraph

open Schema

/-- A function as it stands in a document. -/
structure FunctionDraft where
  start : Location
  stop? : Option Location
  name? : Option (Option String)
  code : Bool
  deriving DecidableEq, Repr

namespace FunctionDraft

/-- The function must end behind its start. -/
def endIssues (draft : FunctionDraft) : List Issue :=
  match draft.stop? with
  | none => []
  | some stop => if draft.start.isBehind stop then [] else [⟨[], .endNotAfterStart⟩]

def check : Check FunctionDraft := fun value =>
  (Check.object (fun members =>
    FunctionDraft.mk
      <$> Check.field "start" Location.check members
      <*> Check.field "end" (Check.optional Location.check) members
      <*> Check.field "name" (Check.optional (Check.nullable Check.string)) members
      <*> Check.field "code" (Check.withDefault true Check.bool) members) value).refine endIssues

/-- The function of a draft that passed the check. -/
def toEntry (draft : FunctionDraft) : FunctionEntry where
  start := draft.start.toAddress
  stop? := draft.stop?.map Location.toAddress
  name? := draft.name?.join
  code := draft.code

end FunctionDraft

/-- One issue for every function that starts where an earlier one does, naming the first such;
`seen` holds the starts so far, and `index` is their number. -/
def duplicateStarts : List FunctionDraft → List Location → Nat → List Issue
  | [], _, _ => []
  | draft :: rest, seen, index =>
    let later := duplicateStarts rest (seen ++ [draft.start]) (index + 1)
    match seen.findIdx? fun start => start == draft.start with
    | some first =>
      ⟨[toString index, "start"], .duplicateStart draft.start.describe first⟩ :: later
    | none => later

def Reference.check : Check Reference :=
  Check.object fun members =>
    (fun source target => ⟨source.toAddress, target.toAddress⟩)
      <$> Check.field "from" Location.check members
      <*> Check.field "to" Location.check members

namespace Snapshot

def checkFunctions : Check (List FunctionEntry) := fun value =>
  List.map FunctionDraft.toEntry <$>
    (Check.array FunctionDraft.check value).refine fun drafts => duplicateStarts drafts [] 0

def checkTable : Check DemangleTable :=
  Check.entries (Check.nullable Check.string)

def check : Check Snapshot :=
  Check.object fun members =>
    Snapshot.mk
      <$> Check.field "functions" checkFunctions members
      <*> Check.field "references" (Check.withDefault [] (Check.array Reference.check)) members
      <*> Check.field "demangled" (Check.withDefault [] (Check.entries checkTable)) members

/-- Reads a snapshot, or tells all that is wrong with it. A value that is absent is wrong, too. -/
def ofJson (value : Option Json) : Except (List Issue) Snapshot :=
  (check value).toExcept

end Snapshot

end CallGraph
