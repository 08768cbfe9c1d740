import CallGraph.Number.Basic

/-!
# Call graphs

A graph has a record for each function name, with the names of its callers. Records keep the order
in which their names first came up; a later record of the same name takes the place of the earlier.
-/

namespace CallGraph

/-- A function with its callers, in ascending order, one for each reference. -/
structure CallRecord where
  name : String
  callCount : Number
  callers : List String
  deriving DecidableEq, Repr, Inhabited

namespace CallRecord

/-- Puts a record in the place of the one with its name, or at the end. -/
def insertInto (record : CallRecord) : List CallRecord → List CallRecord
  | [] => [record]
  | present :: rest =>
    if present.name = record.name then record :: rest else present :: record.insertInto rest

theorem map_name_insertInto (record : CallRecord) (records : List CallRecord) :
    (record.insertInto records).map CallRecord.name =
      if record.name ∈ records.map CallRecord.name then records.map CallRecord.name
      else records.map CallRecord.name ++ [record.name] := by
  induction records with
  | nil => rfl
  | cons present rest ih =>
    simp only [insertInto]
    split
    · next same => simp [same]
    · next differ =>
      have differ' : record.name ≠ present.name := fun h => differ h.symm
      simp only [List.map_cons, ih, List.mem_cons, differ', false_or]
      split <;> simp

end CallRecord

/-- Call records under distinct names, in the order of their first appearance. -/
structure Graph where
  records : List CallRecord
  nodup : (records.map CallRecord.name).Nodup

namespace Graph

def empty : Graph := ⟨[], List.nodup_nil⟩

instance : Inhabited Graph := ⟨empty⟩

def get? (graph : Graph) (name : String) : Option CallRecord :=
  graph.records.find? fun record => record.name == name

def has (graph : Graph) (name : String) : Bool :=
  graph.records.any fun record => record.name == name

def size (graph : Graph) : Nat :=
  graph.records.length

/-- The names, in the order of the records. -/
def names (graph : Graph) : List String :=
  graph.records.map CallRecord.name

/-- Sets the record of a name, which keeps its place if it has one. -/
def set (graph : Graph) (record : CallRecord) : Graph where
  records := record.insertInto graph.records
  nodup := by
    rw [CallRecord.map_name_insertInto]
    split
    · exact graph.nodup
    · next absent =>
      refine List.nodup_append.2 ⟨graph.nodup, by simp, ?_⟩
      intro name hname other hother heq
      simp only [List.mem_singleton] at hother
      exact absent (hother ▸ heq ▸ hname)

/-- Sets the record of a name and gives back the one that it takes the place of. -/
def replace (graph : Graph) (record : CallRecord) : Option CallRecord × Graph :=
  (graph.get? record.name, graph.set record)

end Graph

end CallGraph
