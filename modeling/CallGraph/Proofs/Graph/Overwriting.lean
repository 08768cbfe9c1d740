import CallGraph.Graph.Basic
import CallGraph.Proofs.Text.Distinct
import Mathlib.Data.Finset.Card

/-!
# Graphs as the outcome of settings

A graph is filled by setting one record after another. What it comes to is told by the list of these
records alone: the names stand in the order in which they first came up, and the record of a name is
the last that was set under it. `Recalls` says so of all that a graph can be asked.
-/

namespace CallGraph

namespace CallRecord

theorem find?_insertInto (record : CallRecord) (records : List CallRecord) (name : String) :
    (record.insertInto records).find? (fun present => present.name == name) =
      if record.name = name then some record
      else records.find? fun present => present.name == name := by
  induction records with
  | nil =>
    rw [insertInto, List.find?_singleton]
    simp only [beq_iff_eq, List.find?_nil]
  | cons present rest ih =>
    rw [insertInto]
    split
    · next hsame =>
      by_cases hname : record.name = name
      · rw [List.find?_cons_of_pos (by simp [hname]), if_pos hname]
      · rw [List.find?_cons_of_neg (by simp [hname]), if_neg hname,
          List.find?_cons_of_neg (by simp [hsame, hname])]
    · next hdiffer =>
      by_cases hname : record.name = name
      · rw [List.find?_cons_of_neg (by simp [← hname, hdiffer]), ih, if_pos hname, if_pos hname]
      · simp only [List.find?_cons, ih, if_neg hname]

theorem insertInto_of_not_mem {record : CallRecord} {records : List CallRecord}
    (h : record.name ∉ records.map CallRecord.name) :
    record.insertInto records = records ++ [record] := by
  induction records with
  | nil => rfl
  | cons present rest ih =>
    rw [List.map_cons, List.mem_cons, not_or] at h
    rw [insertInto, if_neg (Ne.symm h.1), ih h.2, List.cons_append]

end CallRecord

namespace Graph

@[simp] theorem names_empty : empty.names = [] := rfl

@[simp] theorem get?_empty (name : String) : empty.get? name = none := rfl

theorem names_set (graph : Graph) (record : CallRecord) :
    (graph.set record).names =
      if record.name ∈ graph.names then graph.names else graph.names ++ [record.name] :=
  CallRecord.map_name_insertInto record graph.records

theorem get?_set (graph : Graph) (record : CallRecord) (name : String) :
    (graph.set record).get? name = if record.name = name then some record else graph.get? name :=
  CallRecord.find?_insertInto record graph.records name

theorem mem_records_iff {graph : Graph} {record : CallRecord} :
    record ∈ graph.records ↔ graph.get? record.name = some record := by
  constructor
  · intro hrecord
    rw [get?, List.find?_eq_some_iff_append]
    obtain ⟨before, after, hsplit⟩ := List.append_of_mem hrecord
    refine ⟨by simp, before, after, hsplit, fun other hother => ?_⟩
    have hnodup := graph.nodup
    rw [hsplit, List.map_append, List.map_cons, List.nodup_append] at hnodup
    have hne := hnodup.2.2 _ (List.mem_map_of_mem hother) record.name (List.mem_cons_self ..)
    simpa using hne
  · exact List.mem_of_find?_eq_some

theorem mem_names_iff {graph : Graph} {name : String} :
    name ∈ graph.names ↔ ∃ record, graph.get? name = some record := by
  rw [names, List.mem_map]
  constructor
  · rintro ⟨record, hrecord, rfl⟩
    exact ⟨record, mem_records_iff.1 hrecord⟩
  · rintro ⟨record, hrecord⟩
    have hname := List.find?_some hrecord
    exact ⟨record, List.mem_of_find?_eq_some hrecord, eq_of_beq hname⟩

theorem has_iff {graph : Graph} {name : String} : graph.has name = true ↔ name ∈ graph.names := by
  rw [has, List.any_eq_true, names, List.mem_map]
  simp only [beq_iff_eq]

theorem get?_eq_none_iff {graph : Graph} {name : String} :
    graph.get? name = none ↔ name ∉ graph.names := by
  rw [mem_names_iff, Option.eq_none_iff_forall_ne_some, not_exists]

theorem map_get?_names (graph : Graph) : graph.names.map graph.get? = graph.records.map some := by
  rw [names, List.map_map]
  exact List.map_congr_left fun record hrecord => mem_records_iff.1 hrecord

theorem length_names (graph : Graph) : graph.names.length = graph.size :=
  List.length_map _

theorem size_set (graph : Graph) (record : CallRecord) :
    (graph.set record).size =
      if record.name ∈ graph.names then graph.size else graph.size + 1 := by
  rw [← length_names, names_set, ← length_names]
  split
  · rfl
  · rw [List.length_append, List.length_singleton]

/-- A record that takes the place of none adds to the graph. -/
theorem size_replace (graph : Graph) (record : CallRecord) :
    (graph.replace record).2.size + (graph.replace record).1.toList.length = graph.size + 1 := by
  rw [replace, size_set]
  cases hget : graph.get? record.name with
  | none => rw [if_neg (get?_eq_none_iff.1 hget), Option.toList_none, List.length_nil]
  | some previous =>
    rw [if_pos (mem_names_iff.2 ⟨previous, hget⟩), Option.toList_some, List.length_singleton]

theorem names_prefix_set (graph : Graph) (record : CallRecord) :
    graph.names <+: (graph.set record).names := by
  rw [names_set]
  split
  · exact List.prefix_rfl
  · exact List.prefix_append ..

theorem records_set_of_not_mem {graph : Graph} {record : CallRecord}
    (h : record.name ∉ graph.names) : (graph.set record).records = graph.records ++ [record] :=
  CallRecord.insertInto_of_not_mem h

/-- The graph that comes of setting records in order. -/
def ofRecords (records : List CallRecord) : Graph :=
  records.foldl set empty

theorem ofRecords_concat (records : List CallRecord) (record : CallRecord) :
    ofRecords (records ++ [record]) = (ofRecords records).set record := by
  rw [ofRecords, List.foldl_concat, ofRecords]

theorem names_ofRecords (records : List CallRecord) :
    (ofRecords records).names = (records.map CallRecord.name).eraseDups := by
  induction records using List.reverseRecOn with
  | nil => rfl
  | append_singleton records record ih =>
    rw [ofRecords_concat, names_set, ih, List.map_append, List.map_singleton, eraseDups_concat]

theorem get?_ofRecords (records : List CallRecord) (name : String) :
    (ofRecords records).get? name = records.reverse.find? fun record => record.name == name := by
  induction records using List.reverseRecOn with
  | nil => rfl
  | append_singleton records record ih =>
    rw [ofRecords_concat, get?_set, ih, List.reverse_append, List.reverse_singleton,
      List.singleton_append]
    by_cases hname : record.name = name
    · rw [if_pos hname, List.find?_cons_of_pos (by simp [hname])]
    · rw [if_neg hname, List.find?_cons_of_neg (by simp [hname])]

theorem mem_names_ofRecords {records : List CallRecord} {name : String} :
    name ∈ (ofRecords records).names ↔ ∃ record ∈ records, record.name = name := by
  rw [names_ofRecords, List.mem_eraseDups, List.mem_map]

/-- The record that is found was set under the name, and none was set under it since. -/
theorem get?_ofRecords_eq_some_iff {records : List CallRecord} {name : String}
    {record : CallRecord} :
    (ofRecords records).get? name = some record ↔
      record.name = name ∧ ∃ earlier later, records = earlier ++ record :: later ∧
        ∀ other ∈ later, other.name ≠ name := by
  rw [get?_ofRecords, List.find?_eq_some_iff_append, beq_iff_eq]
  -- The search goes from behind, so that what it passes over was set later.
  refine and_congr_right fun _ => ⟨?_, ?_⟩
  · rintro ⟨later, earlier, hsplit, hlater⟩
    refine ⟨earlier.reverse, later.reverse, ?_, fun other hother => ?_⟩
    · rw [← List.reverse_reverse records, hsplit]
      simp
    · simpa using hlater other (List.mem_reverse.1 hother)
  · rintro ⟨earlier, later, rfl, hlater⟩
    refine ⟨later.reverse, earlier.reverse, by simp, fun other hother => ?_⟩
    simpa using hlater other (List.mem_reverse.1 hother)

theorem size_ofRecords (records : List CallRecord) :
    (ofRecords records).size = (records.map CallRecord.name).toFinset.card := by
  have hnodup : (ofRecords records).names.Nodup := (ofRecords records).nodup
  rw [← length_names, ← List.toFinset_card_of_nodup hnodup]
  congr 1
  ext name
  rw [List.mem_toFinset, mem_names_ofRecords, List.mem_toFinset, List.mem_map]

theorem size_ofRecords_le (records : List CallRecord) :
    (ofRecords records).size ≤ records.length := by
  rw [size_ofRecords, ← List.length_map CallRecord.name]
  exact List.toFinset_card_le _

theorem records_ofRecords_of_size {records : List CallRecord}
    (h : (ofRecords records).size = records.length) : (ofRecords records).records = records := by
  induction records using List.reverseRecOn with
  | nil => rfl
  | append_singleton records record ih =>
    rw [ofRecords_concat, size_set, List.length_append, List.length_singleton] at h
    have hle := size_ofRecords_le records
    split at h
    · omega
    · next hnew => rw [ofRecords_concat, records_set_of_not_mem hnew, ih (by omega)]

theorem size_ofRecords_of_perm {records others : List CallRecord} (h : records.Perm others) :
    (ofRecords records).size = (ofRecords others).size := by
  rw [size_ofRecords, size_ofRecords, List.toFinset_eq_of_perm _ _ (h.map CallRecord.name)]

/-! ### What a graph recalls -/

/-- All that a graph has to tell of the records that were set, first to last: each name stands once,
where it first came up, and the record found under it is the last that was set. -/
structure Recalls (history : List CallRecord) (graph : Graph) : Prop where
  mem_names : ∀ name, name ∈ graph.names ↔ ∃ record ∈ history, record.name = name
  names_ordered : graph.names.Pairwise fun name other =>
    (history.map CallRecord.name).idxOf name < (history.map CallRecord.name).idxOf other
  get? : ∀ name record, graph.get? name = some record ↔
    record.name = name ∧ ∃ earlier later, history = earlier ++ record :: later ∧
      ∀ other ∈ later, other.name ≠ name
  has : ∀ name, graph.has name = true ↔ ∃ record ∈ history, record.name = name
  size : graph.size = (history.map CallRecord.name).toFinset.card
  records : graph.records.map some = graph.names.map graph.get?

theorem recalls_ofRecords (history : List CallRecord) : Recalls history (ofRecords history) where
  mem_names _ := mem_names_ofRecords
  names_ordered := by
    have hordered := pairwise_idxOf_eraseDups_filter (fun _ => true) (history.map CallRecord.name)
    rwa [List.filter_true, ← names_ofRecords] at hordered
  get? _ _ := get?_ofRecords_eq_some_iff
  has _ := by rw [has_iff, mem_names_ofRecords]
  size := size_ofRecords history
  records := (map_get?_names _).symm

/-- What setting one record does: it gives back what was found under the name, puts the record there,
and leaves what is found under the others. All names keep their places, behind which the new one may
come. -/
structure Replaces (graph : Graph) (record : CallRecord) (replaced : Option CallRecord)
    (next : Graph) : Prop where
  replaced_eq : replaced = graph.get? record.name
  get?_self : next.get? record.name = some record
  get?_of_ne : ∀ name, name ≠ record.name → next.get? name = graph.get? name
  names_prefix : graph.names <+: next.names

theorem replaces_set (graph : Graph) (record : CallRecord) :
    Replaces graph record (graph.get? record.name) (graph.set record) where
  replaced_eq := rfl
  get?_self := by rw [get?_set, if_pos rfl]
  get?_of_ne name hname := by rw [get?_set, if_neg hname.symm]
  names_prefix := names_prefix_set graph record

/-- Whatever was set, the graph recalls it, and to set one more record replaces the one of its name
and nothing else. -/
theorem recalls_history (history : List CallRecord) :
    Recalls history (ofRecords history) ∧
      ∀ record, ∃ replaced,
        (ofRecords history).replace record = (replaced, ofRecords (history ++ [record])) ∧
          Replaces (ofRecords history) record replaced (ofRecords (history ++ [record])) := by
  refine ⟨recalls_ofRecords history, fun record => ?_⟩
  rw [ofRecords_concat]
  exact ⟨_, rfl, replaces_set (ofRecords history) record⟩

example :
    ((ofRecords [⟨"outer()", .ofNat 1, ["inner()"]⟩, ⟨"inner()", .ofNat 0, []⟩]).replace
      ⟨"outer()", .ofNat 0, []⟩).2.names = ["outer()", "inner()"] := by
  decide

end Graph

end CallGraph
