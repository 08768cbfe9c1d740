import CallGraph.Proofs.Document.RoundTrip
import CallGraph.Proofs.Json.Order

/-!
# The order of a document that is read back

A document is written in the order of its graph, whatever its names look like. The object that is read from
it does not keep that order: names that are array indices come first in it, in ascending order. So the order
of the graph is read back exactly when the names are in this order already, and a listing by the start of
names has it exactly when the names that it lists are.
-/

namespace CallGraph

open Schema Schema.Checked

namespace Document

/-- Whatever the counts are, the text of a graph is read as an object with its names. -/
theorem exists_parse_render (graph : Graph) :
    ∃ results : Json.Members, results.map Prod.fst = graph.names ∧
      Json.parse (render graph) = .ok (Json.ofMembers results) := by
  obtain ⟨results, hresults⟩ := Json.exists_membersReadAs (graph.records.map memberJson)
  refine ⟨results, ?_, ?_⟩
  · rw [hresults.map_fst_eq, List.map_map]
    rfl
  · rw [Json.parse, render, String.toList_ofList, renderChars_eq]
    exact Json.parseChars_prettyChars (.object hresults)

theorem map_fst_of_ofJson {members : Json.Members} {document : Document}
    (h : ofJson (some (.object members)) = .ok document) :
    document.map Prod.fst = (members.map Prod.fst).filter fun name => name != "__proto__" := by
  obtain ⟨_, pairs, hmembers, hpairs, rfl⟩ :=
    Check.accepts_entries_iff.1 (toExcept_eq_ok_iff.1 h)
  obtain rfl := Json.object.inj (Option.some.inj hmembers)
  have hnames : members.map Prod.fst = pairs.map Prod.fst := by
    rw [← List.forall₂_eq_eq_eq, List.forall₂_map_left_iff, List.forall₂_map_right_iff]
    exact hpairs.imp fun _ _ hpair => hpair.1
  rw [hnames, List.filter_map]
  rfl

theorem map_name_find (document : Document) (start : String) :
    (document.find start none).map Listing.name =
      (document.map Prod.fst).filter fun name => NameFilter.startsWith name start := by
  rw [find, List.map_map, List.filter_map]
  rfl

theorem find_prefix_all (document : Document) (start : String) (limit : Option Number) :
    document.find start limit <+: document.find start none := by
  cases limit with
  | none => exact List.prefix_rfl
  | some limit =>
    rw [find, find]
    cases limit with
    | finite value => exact List.take_prefix _ _
    | infinite negative =>
      cases negative with
      | false => exact List.prefix_rfl
      | true => exact List.nil_prefix

/-- A graph is read back with the indices among its names first and the other names in their order. Its own order is
read back just when that is the same, and so it is with listings by the start of names. -/
theorem names_readBack (graph : Graph) :
    ∃ value, Json.parse (render graph) = .ok value ∧
      (HasExactCounts graph.records → ∃ document, ofJson (some value) = .ok document) ∧
      ∀ document, ofJson (some value) = .ok document →
        document.map Prod.fst =
            Json.inReadingOrder (graph.names.filter fun name => name != "__proto__") ∧
          (document.map Prod.fst = graph.names ↔
            "__proto__" ∉ graph.names ∧ Json.IsInReadingOrder graph.names) ∧
          ∀ start limit, document.find start limit <+: document.find start none ∧
            (document.find start none).map Listing.name = Json.inReadingOrder
              (graph.names.filter fun name =>
                name != "__proto__" && NameFilter.startsWith name start) := by
  obtain ⟨results, hnames, hparse⟩ := exists_parse_render graph
  refine ⟨Json.ofMembers results, hparse, ?_, ?_⟩
  · intro hcounts
    obtain ⟨value, document, hvalue, hdocument, -⟩ := exists_ofJson_parse_render hcounts
    obtain rfl := Except.ok.inj (hparse.symm.trans hvalue)
    exact ⟨document, hdocument⟩
  · intro document hdocument
    have horder : document.map Prod.fst =
        Json.inReadingOrder (graph.names.filter fun name => name != "__proto__") := by
      rw [map_fst_of_ofJson hdocument, Json.Members.map_fst_ofList (hnames ▸ graph.nodup), hnames,
        Json.filter_inReadingOrder]
    refine ⟨horder, ?_, fun start limit => ⟨find_prefix_all document start limit, ?_⟩⟩
    · have hkept (h : "__proto__" ∉ graph.names) :
          (graph.names.filter fun name => name != "__proto__") = graph.names :=
        List.filter_eq_self.2 fun name hname => bne_iff_ne.2 (ne_of_mem_of_not_mem hname h)
      rw [horder]
      constructor
      · intro hsame
        have hproto : "__proto__" ∉ graph.names := by
          rw [← hsame, (Json.inReadingOrder_perm _).mem_iff]
          simp
        rw [hkept hproto] at hsame
        exact ⟨hproto, Json.inReadingOrder_eq_self_iff.1 hsame⟩
      · rintro ⟨hproto, hnames⟩
        rw [hkept hproto, Json.inReadingOrder_eq_self_iff.2 hnames]
    · rw [map_name_find, horder, Json.filter_inReadingOrder, List.filter_filter]
      simp only [Bool.and_comm]

/-- A graph with two indices behind other names, and with the name that is not read back. -/
def numbered : Graph where
  records :=
    [⟨"run", .ofNat 1, ["42"]⟩, ⟨"42", .ofNat 0, []⟩, ⟨"__proto__", .ofNat 0, []⟩,
      ⟨"007", .ofNat 0, []⟩, ⟨"7", .ofNat 0, []⟩]
  nodup := by decide

theorem names_readBack_numbered :
    HasExactCounts numbered.records ∧
      ∃ value document, Json.parse (render numbered) = .ok value ∧
        ofJson (some value) = .ok document ∧
        document.map Prod.fst = ["7", "42", "run", "007"] := by
  have hcounts : HasExactCounts numbered.records := by
    simp only [HasExactCounts, numbered, List.forall_mem_cons]
    exact ⟨⟨1, by decide, rfl⟩, ⟨0, by decide, rfl⟩, ⟨0, by decide, rfl⟩, ⟨0, by decide, rfl⟩,
      ⟨0, by decide, rfl⟩, by simp⟩
  obtain ⟨value, hvalue, hread, hnames⟩ := names_readBack numbered
  obtain ⟨document, hdocument⟩ := hread hcounts
  refine ⟨hcounts, value, document, hvalue, hdocument, ?_⟩
  rw [(hnames document hdocument).1]
  refine (Json.eq_inReadingOrder ?_ ?_ ?_).symm
  · decide +kernel
  · unfold Json.IsInReadingOrder
    decide +kernel
  · decide +kernel

/-- A graph with an index behind a name that is none. -/
def indexLast : Graph where
  records := [⟨"4b", .ofNat 0, []⟩, ⟨"42", .ofNat 0, []⟩]
  nodup := by decide

/-- The index stands last in the text of the graph, and first in the document that is read from it. -/
theorem names_readBack_indexLast :
    indexLast.names = ["4b", "42"] ∧
      (((Json.parse (render indexLast)).toOption.bind fun value =>
        (ofJson (some value)).toOption).map fun document =>
          (document.map Prod.fst, (document.find "4" none).map Listing.name)) =
        some (["42", "4b"], ["42", "4b"]) := by
  decide +kernel

end Document

end CallGraph
