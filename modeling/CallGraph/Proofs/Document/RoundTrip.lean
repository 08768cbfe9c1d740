import CallGraph.Document.Lookup
import CallGraph.Proofs.Document.Layout
import CallGraph.Proofs.Json.RoundTrip
import CallGraph.Proofs.Schema.Acceptance
import Mathlib.Data.List.Perm.Basic

/-!
# Written documents read back

The text of a graph is that of one JSON object with a member for each record. Reading it gives this
object, and the check of documents takes from it the entries of the graph, without that of
`__proto__`.
-/

namespace CallGraph

open Schema Schema.Checked

namespace Document

/-! ### The text -/

/-- Every count of the graph is one that a file can hold exactly. -/
def HasExactCounts (records : List CallRecord) : Prop :=
  ∀ record ∈ records, ∃ n ≤ Number.maxSafe, record.callCount = .ofNat n

theorem itemsReadAs_strings (texts : List String) :
    Json.ItemsReadAs (texts.map .string) (texts.map .string) := by
  induction texts with
  | nil => exact .nil
  | cons text rest ih => exact .cons (.string text) ih

theorem readsAs_toJson {record : CallRecord} {n : Nat} (hn : n ≤ Number.maxSafe)
    (hcount : record.callCount = .ofNat n) :
    Json.ReadsAs (Entry.ofRecord record).toJson (Entry.ofRecord record).toJson := by
  rw [Entry.toJson, Entry.ofRecord, hcount]
  exact .object (.cons (.number (Json.numberReadsAs_ofNat hn)) (.cons (.array (itemsReadAs_strings record.callers)) .nil))

theorem membersReadAs_map {records : List CallRecord} (h : HasExactCounts records) :
    Json.MembersReadAs (records.map memberJson) (records.map memberJson) := by
  induction records with
  | nil => exact .nil
  | cons record rest ih =>
    obtain ⟨⟨n, hn, hcount⟩, hrest⟩ := List.forall_mem_cons.1 h
    exact .cons (readsAs_toJson hn hcount) (ih hrest)

theorem parse_render {graph : Graph} (h : HasExactCounts graph.records) :
    Json.parse (render graph) = .ok (Json.ofMembers (graph.records.map memberJson)) := by
  rw [Json.parse, render, String.toList_ofList, renderChars_eq]
  exact Json.parseChars_prettyChars (.object (membersReadAs_map h))

theorem forall₂_strings (texts : List String) :
    List.Forall₂ (fun item result => (Check.string (some item)).Accepts result)
      (texts.map .string) texts := by
  rw [List.forall₂_map_left_iff, List.forall₂_same]
  exact fun text _ => Check.accepts_string_iff.2 rfl

theorem accepts_toJson {record : CallRecord} {n : Nat} (hcount : record.callCount = .ofNat n) :
    (Entry.check (some (Entry.ofRecord record).toJson)).Accepts (.ofRecord record) := by
  refine Check.accepts_object_iff.2 ⟨_, rfl, ?_⟩
  simp only [accepts_seq_iff, accepts_map_iff, Check.accepts_field_iff]
  refine ⟨_, record.callers, ⟨.ofNat n, ?_, rfl⟩, ?_, ?_⟩
  · have hvalue : Json.Members.get? "CallCount"
        [("CallCount", .number record.callCount), ("Usages", .strings record.callers)]
          = some (.number (.ofNat n)) := by
      rw [← hcount]
      rfl
    have hproblems := Check.countProblems_eq_nil_iff.2 ⟨n, rfl⟩
    exact accepts_refine_iff.2
      ⟨Check.accepts_number_iff.2 hvalue, by rw [hproblems, List.map_nil]⟩
  · exact Check.accepts_array_iff.2 ⟨_, rfl, forall₂_strings record.callers⟩
  · rw [Entry.ofRecord, hcount]

/-- A written document is read back with the entries of the graph. -/
theorem exists_ofJson_parse_render {graph : Graph} (h : HasExactCounts graph.records) :
    ∃ value document, Json.parse (render graph) = .ok value ∧
      ofJson (some value) = .ok document ∧
      document.Perm ((ofGraph graph).filter fun member => member.1 != "__proto__") := by
  have hperm : (Json.Members.ofList (graph.records.map memberJson)).Perm
      (graph.records.map memberJson) := by
    refine Json.Members.perm_ofList ?_
    rw [List.map_map]
    exact graph.nodup
  have hchecks : List.Forall₂ (fun member pair => member.1 = pair.1 ∧
      (Entry.check (some member.2)).Accepts pair.2)
      (graph.records.map memberJson) (ofGraph graph) := by
    rw [ofGraph, List.forall₂_map_left_iff, List.forall₂_map_right_iff, List.forall₂_same]
    intro record hrecord
    obtain ⟨n, -, hcount⟩ := h record hrecord
    exact ⟨rfl, accepts_toJson hcount⟩
  obtain ⟨pairs, hpairs, hentries⟩ := List.perm_comp_forall₂ hperm hchecks
  refine ⟨_, pairs.filter fun pair => pair.1 != "__proto__", parse_render h, ?_,
    hentries.filter _⟩
  exact toExcept_eq_ok_iff.2 (Check.accepts_entries_iff.2 ⟨_, pairs, rfl, hpairs, rfl⟩)

/-! ### The entries of names -/

theorem get?_cons (member : String × Entry) (rest : Document) (name : String) :
    get? (member :: rest) name = if name = member.1 then some member.2 else get? rest name := by
  rw [get?, List.lookup_cons, get?]
  by_cases hname : name = member.1
  · rw [if_pos hname, beq_iff_eq.2 hname]
  · rw [if_neg hname, beq_eq_false_iff_ne.2 hname]

theorem get?_eq_some_iff {document : Document} (hnodup : (document.map Prod.fst).Nodup)
    {name : String} {entry : Entry} :
    document.get? name = some entry ↔ (name, entry) ∈ document := by
  induction document with
  | nil => simp [get?]
  | cons member rest ih =>
    rw [List.map_cons, List.nodup_cons] at hnodup
    rw [get?_cons, List.mem_cons]
    by_cases hname : name = member.1
    · subst hname
      have habsent : (member.1, entry) ∉ rest :=
        fun hmem => hnodup.1 (List.mem_map.2 ⟨_, hmem, rfl⟩)
      simp [habsent, Prod.ext_iff, eq_comm]
    · have hother : (name, entry) ≠ member := fun h => hname (congrArg Prod.fst h)
      simp only [if_neg hname, hother, false_or]
      exact ih hnodup.2

theorem nodup_ofGraph (graph : Graph) : ((ofGraph graph).map Prod.fst).Nodup := by
  rw [ofGraph, List.map_map]
  exact graph.nodup

theorem get?_ofGraph (graph : Graph) (name : String) :
    (ofGraph graph).get? name = (graph.get? name).map Entry.ofRecord := by
  rw [ofGraph, Graph.get?]
  induction graph.records with
  | nil => rfl
  | cons record rest ih =>
    rw [List.map_cons, get?_cons, ih]
    by_cases hname : name = record.name
    · rw [if_pos hname, List.find?_cons_of_pos (by simp [hname])]
      rfl
    · rw [if_neg hname, List.find?_cons_of_neg (by simp [Ne.symm hname])]

theorem get?_eq_of_perm {document other : Document} (hnodup : (document.map Prod.fst).Nodup)
    (hperm : document.Perm other) (name : String) : document.get? name = other.get? name := by
  have hother : (other.map Prod.fst).Nodup := (hperm.map Prod.fst).nodup_iff.1 hnodup
  ext entry
  rw [get?_eq_some_iff hnodup, get?_eq_some_iff hother, hperm.mem_iff]

theorem get?_filter_ne (document : Document) (key name : String) :
    get? (document.filter fun member => member.1 != key) name =
      if name = key then none else document.get? name := by
  induction document with
  | nil => simp [get?]
  | cons member rest ih =>
    rw [List.filter_cons]
    split
    · next hkept =>
      have hdiffers : member.1 ≠ key := bne_iff_ne.1 hkept
      rw [get?_cons, get?_cons, ih]
      by_cases hname : name = key
      · simp [hname, Ne.symm hdiffers]
      · simp only [if_neg hname]
    · next hdropped =>
      have hsame : member.1 = key := by simpa using hdropped
      rw [get?_cons, ih, hsame]
      by_cases hname : name = key <;> simp only [hname, if_true, if_false]

theorem nodup_of_perm {document : Document} {graph : Graph}
    (hperm : document.Perm ((ofGraph graph).filter fun member => member.1 != "__proto__")) :
    (document.map Prod.fst).Nodup :=
  (hperm.map Prod.fst).nodup_iff.2 ((nodup_ofGraph graph).sublist (List.filter_sublist.map _))

theorem get?_of_perm {document : Document} {graph : Graph}
    (hperm : document.Perm ((ofGraph graph).filter fun member => member.1 != "__proto__"))
    (name : String) :
    document.get? name =
      if name = "__proto__" then none else (graph.get? name).map Entry.ofRecord := by
  rw [get?_eq_of_perm (nodup_of_perm hperm) hperm, get?_filter_ne, get?_ofGraph]

/-- Writing a graph and reading it back loses and alters nothing but what stands under
`__proto__`. -/
theorem reads_back (graph : Graph) (h : HasExactCounts graph.records) :
    ∃ value document, Json.parse (render graph) = .ok value ∧
      ofJson (some value) = .ok document ∧ (document.map Prod.fst).Nodup ∧
      ∀ name, document.get? name =
        if name = "__proto__" then none else (graph.get? name).map Entry.ofRecord := by
  obtain ⟨value, document, hvalue, hdocument, hperm⟩ := exists_ofJson_parse_render h
  exact ⟨value, document, hvalue, hdocument, nodup_of_perm hperm, get?_of_perm hperm⟩

/-- A graph with names that need escapes, and with the one that is not read back. -/
def unusual : Graph where
  records :=
    [⟨"say \"hi\"\n", .ofNat 2, ["back\\slash", "\u0001"]⟩, ⟨"7", .ofNat 1, ["__proto__"]⟩,
      ⟨"__proto__", .ofNat 1, ["7"]⟩]
  nodup := by decide

theorem reads_back_unusual :
    HasExactCounts unusual.records ∧
      ∃ value document, Json.parse (render unusual) = .ok value ∧
        ofJson (some value) = .ok document ∧
        document.get? "7" = some ⟨.ofNat 1, ["__proto__"]⟩ ∧
        document.get? "__proto__" = none := by
  have hcounts : HasExactCounts unusual.records := by
    simp only [HasExactCounts, unusual, List.forall_mem_cons]
    exact ⟨⟨2, by decide, rfl⟩, ⟨1, by decide, rfl⟩, ⟨1, by decide, rfl⟩, by simp⟩
  obtain ⟨value, document, hvalue, hdocument, -, hentries⟩ := reads_back unusual hcounts
  refine ⟨hcounts, value, document, hvalue, hdocument, ?_, ?_⟩
  · rw [hentries]
    rfl
  · rw [hentries]
    rfl

end Document

end CallGraph
