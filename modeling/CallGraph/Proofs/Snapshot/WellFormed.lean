import CallGraph.Proofs.Snapshot.Exports

/-!
# Accepted snapshots are well-formed

What the queries need of a snapshot is that no two functions start at one address and that every
function ends behind its start. Both are read off the documents that are accepted: where no end is
stated, a function takes one address.
-/

namespace CallGraph

open Schema

/-- The end that is taken lies behind the start exactly when a stated one does. -/
theorem FunctionEntry.start_lt_stop_iff {entry : FunctionEntry} :
    entry.start < entry.stop ↔ ∀ stop, entry.stop? = some stop → entry.start < stop := by
  cases hstop : entry.stop? with
  | none => simp [stop, hstop]
  | some given => simp [stop, hstop]

/-- A snapshot on which queries are well-defined: the functions start at different addresses, and
each ends behind its start. -/
structure Snapshot.WellFormed (snapshot : Snapshot) : Prop where
  nodup_starts : (snapshot.functions.map FunctionEntry.start).Nodup
  start_lt_stop : ∀ entry ∈ snapshot.functions, entry.start < entry.stop

namespace Snapshot

/-- Nothing is read but from a document that stands for it. -/
theorem exists_isSnapshot_of_ofJson {value : Option Json} {snapshot : Snapshot}
    (h : ofJson value = .ok snapshot) :
    ∃ json, Export.IsSnapshot json snapshot ∧ (snapshot.functions.map FunctionEntry.start).Nodup := by
  obtain ⟨members, rfl, -⟩ := Check.accepts_object_iff.1 (Checked.toExcept_eq_ok_iff.1 h)
  exact ⟨_, ofJson_eq_ok_iff.1 h⟩

theorem wellFormed_of_ofJson {value : Option Json} {snapshot : Snapshot}
    (h : ofJson value = .ok snapshot) : snapshot.WellFormed := by
  obtain ⟨json, ⟨members, -, hmembers⟩, hnodup⟩ := exists_isSnapshot_of_ofJson h
  obtain ⟨functions, -, hfunctions⟩ := hmembers.functions
  refine ⟨hnodup, fun entry hentry => FunctionEntry.start_lt_stop_iff.2 ?_⟩
  obtain ⟨item, members, -, hentry⟩ := hfunctions.forall_mem entry hentry
  exact hentry.start_lt

end Snapshot

end CallGraph
