import CallGraph.Proofs.Snapshot.WellFormed

/-!
# Snapshots written as documents

A snapshot may be written as the document that it could have been read from, with its addresses as
numbers. The document is accepted when the snapshot is well-formed and its addresses are exact, and
reading it gives the snapshot back. The tables of a snapshot that was itself read stand in no way:
the one key that reading drops is not among theirs.
-/

namespace CallGraph

open Schema Export

namespace FunctionEntry

def bounds (entry : FunctionEntry) : List Address :=
  entry.start :: entry.stop?.toList

/-- The function in a document, which leaves out an end that is not stated. -/
def toJson (entry : FunctionEntry) : Json :=
  let stop := entry.stop?.toList.map fun stop => ("end", Json.int stop)
  .object ([("start", .int entry.start), ("name", .string? entry.name?),
    ("code", .bool entry.code)] ++ stop)

theorem isObject_toJson {entry : FunctionEntry} (hexact : ∀ address ∈ entry.bounds, address.IsExact)
    (h : entry.start < entry.stop) : IsObject HasFunction entry.toJson entry := by
  rw [bounds, List.forall_mem_cons] at hexact
  obtain ⟨hstart, hstop⟩ := hexact
  refine ⟨_, rfl, ⟨_, rfl, hstart.isAddress⟩, ?_, start_lt_stop_iff.1 h, .inr ⟨_, rfl, rfl⟩,
    .inr ⟨_, rfl, rfl⟩⟩
  cases hgiven : entry.stop? with
  | none => exact .inl ⟨rfl, rfl⟩
  | some stop =>
    have hexact : stop.IsExact := hstop stop (by simp [hgiven])
    exact .inr ⟨_, rfl, stop, hexact.isAddress, rfl⟩

end FunctionEntry

namespace Reference

def toJson (reference : Reference) : Json :=
  .object [("from", .int reference.source), ("to", .int reference.target)]

theorem isObject_toJson {reference : Reference} (hsource : reference.source.IsExact)
    (htarget : reference.target.IsExact) : IsObject HasReference reference.toJson reference :=
  ⟨_, rfl, ⟨_, rfl, hsource.isAddress⟩, ⟨_, rfl, htarget.isAddress⟩⟩

end Reference

def DemangleTable.toJson (table : DemangleTable) : Json :=
  .object (table.map fun entry => (entry.1, .string? entry.2))

namespace Snapshot

variable {snapshot : Snapshot}

def addresses (snapshot : Snapshot) : List Address :=
  snapshot.functions.flatMap FunctionEntry.bounds ++
    snapshot.references.flatMap fun reference => [reference.source, reference.target]

def toJson (snapshot : Snapshot) : Json :=
  .object
    [("functions", .array (snapshot.functions.map FunctionEntry.toJson)),
      ("references", .array (snapshot.references.map Reference.toJson)),
      ("demangled", .object (snapshot.tables.map fun table => (table.1, table.2.toJson)))]

/-- No key of the tables is the one that reading drops. -/
def HasKeptKeys (snapshot : Snapshot) : Prop :=
  ∀ table ∈ snapshot.tables, table.1 ≠ "__proto__" ∧
    ∀ entry ∈ table.2, entry.1 ≠ "__proto__"

theorem hasKeptKeys_of_ofJson {value : Option Json} (h : ofJson value = .ok snapshot) :
    snapshot.HasKeptKeys := by
  obtain ⟨json, ⟨members, -, hmembers⟩, -⟩ := exists_isSnapshot_of_ofJson h
  rcases hmembers.tables with ⟨-, hnone⟩ | ⟨given, -, htables⟩
  · simp [HasKeptKeys, hnone]
  · intro table htable
    obtain ⟨hname, symbols, hsymbols⟩ := htables.forall_mem table htable
    exact ⟨hname, fun entry hentry => (hsymbols.forall_mem entry hentry).1⟩

theorem isSnapshot_toJson (hwf : snapshot.WellFormed)
    (hexact : ∀ address ∈ snapshot.addresses, address.IsExact) (hkeys : snapshot.HasKeptKeys) :
    IsSnapshot snapshot.toJson snapshot := by
  obtain ⟨hbounds, hends⟩ := List.forall_mem_append.1 hexact
  have hfunctions : ∀ entry ∈ snapshot.functions, IsObject HasFunction entry.toJson entry := by
    intro entry hentry
    refine FunctionEntry.isObject_toJson ?_ (hwf.start_lt_stop entry hentry)
    intro address haddress
    exact hbounds address (List.mem_flatMap.2 ⟨entry, hentry, haddress⟩)
  have hreferences : ∀ reference ∈ snapshot.references,
      IsObject HasReference reference.toJson reference := by
    intro reference hreference
    have hboth : reference.source.IsExact ∧ reference.target.IsExact := by
      simpa using fun address haddress =>
        hends address (List.mem_flatMap.2 ⟨reference, hreference, haddress⟩)
    exact Reference.isObject_toJson hboth.1 hboth.2
  have htables : ∀ table ∈ snapshot.tables,
      table.1 ≠ "__proto__" ∧ IsTable IsText? table.2.toJson table.2 := by
    intro table htable
    obtain ⟨hname, hsymbols⟩ := hkeys table htable
    exact ⟨hname, isTable_map fun entry hentry => ⟨hsymbols entry hentry, rfl⟩⟩
  exact ⟨_, rfl, ⟨_, rfl, isArray_map hfunctions⟩, .inr ⟨_, rfl, isArray_map hreferences⟩,
    .inr ⟨_, rfl, isTable_map htables⟩⟩

theorem ofJson_toJson (hwf : snapshot.WellFormed)
    (hexact : ∀ address ∈ snapshot.addresses, address.IsExact) (hkeys : snapshot.HasKeptKeys) :
    ofJson (some snapshot.toJson) = .ok snapshot :=
  ofJson_eq_ok_iff.2 ⟨isSnapshot_toJson hwf hexact hkeys, hwf.nodup_starts⟩

end Snapshot

end CallGraph
