import CallGraph.Demangler.Batch
import CallGraph.Proofs.Snapshot.Covering
import CallGraph.Proofs.Text.Distinct
import CallGraph.Proofs.Text.Order

/-!
# What a snapshot leaves to be asked

A tool is asked about the symbols on which the tables of a snapshot are silent. `IsBatch` says which
these are and in what order, without the index, and so describes one list. The batch that a demangler
without answers makes of them is that list.
-/

namespace CallGraph

theorem ne_empty_of_isItaniumSymbol {symbol : String} (h : isItaniumSymbol symbol = true) :
    symbol ≠ "" := by
  rintro rfl
  revert h
  decide

namespace Snapshot

variable {snapshot : Snapshot} {symbol : String}

/-- Some function bears the symbol. -/
def Bears (snapshot : Snapshot) (symbol : String) : Prop :=
  ∃ entry ∈ snapshot.functions, entry.name? = some symbol

/-- The symbols of the Itanium convention that functions bear and that the table does not list, each
once, in the order in which the first function of each starts. -/
structure IsBatch (snapshot : Snapshot) (symbols : List String) : Prop where
  nodup : symbols.Nodup
  mem_iff : ∀ symbol, symbol ∈ symbols ↔ isItaniumSymbol symbol = true ∧
    snapshot.tableEntry? .itanium symbol = none ∧ snapshot.Bears symbol
  ordered : symbols.Pairwise fun first second =>
    ∃ entry ∈ snapshot.functions, entry.name? = some first ∧
      ∀ other ∈ snapshot.functions, other.name? = some second → entry.start < other.start

theorem IsBatch.unique {symbols others : List String} (h : snapshot.IsBatch symbols)
    (hothers : snapshot.IsBatch others) : symbols = others := by
  have hperm : symbols.Perm others := by
    rw [List.perm_ext_iff_of_nodup h.nodup hothers.nodup]
    intro symbol
    rw [h.mem_iff, hothers.mem_iff]
  refine List.Perm.eq_of_pairwise ?_ h.ordered hothers.ordered hperm
  -- The first functions of two symbols can not each start before the other.
  rintro first second - - ⟨entry, hentry, hfirst, hbefore⟩ ⟨other, hother, hsecond, hbehind⟩
  exact absurd (hbefore other hother hsecond) (lt_asymm (hbehind entry hentry hfirst))

/-- The symbol of a function on which the tables are silent. -/
def silentSymbol? (snapshot : Snapshot) (abi : Abi) (entry : FunctionEntry) : Option String :=
  (Text.nonEmpty entry.name?).filter fun symbol => (snapshot.tableEntry? abi symbol).isNone

theorem silentSymbol?_eq_some_iff {abi : Abi} {entry : FunctionEntry} :
    snapshot.silentSymbol? abi entry = some symbol ↔
      entry.name? = some symbol ∧ symbol ≠ "" ∧ snapshot.tableEntry? abi symbol = none := by
  rw [silentSymbol?, Option.filter_eq_some_iff, Text.nonEmpty_eq_some_iff, Option.isNone_iff_eq_none,
    and_assoc]

theorem symbolsToAsk_eq (snapshot : Snapshot) (abi : Abi) :
    snapshot.symbolsToAsk abi =
      (snapshot.sortedFunctions.filterMap (snapshot.silentSymbol? abi)).eraseDups := by
  rw [symbolsToAsk, List.filter_filterMap]
  rfl

theorem mem_symbolsToAsk_iff {abi : Abi} :
    symbol ∈ snapshot.symbolsToAsk abi ↔
      symbol ≠ "" ∧ snapshot.tableEntry? abi symbol = none ∧ snapshot.Bears symbol := by
  simp only [symbolsToAsk_eq, List.mem_eraseDups, List.mem_filterMap, mem_sortedFunctions,
    silentSymbol?_eq_some_iff]
  constructor
  · rintro ⟨entry, hentry, hname, hnonempty, hsilent⟩
    exact ⟨hnonempty, hsilent, entry, hentry, hname⟩
  · rintro ⟨hnonempty, hsilent, entry, hentry, hname⟩
    exact ⟨entry, hentry, hname, hnonempty, hsilent⟩

theorem isBatch_pending (hwf : snapshot.WellFormed) (commands : List String) :
    snapshot.IsBatch
      ((Demangler.fresh commands).pending (snapshot.symbolsToAsk .itanium)) := by
  have hfilter : (Demangler.fresh commands).pending (snapshot.symbolsToAsk .itanium) =
      (snapshot.symbolsToAsk .itanium).filter isItaniumSymbol := by
    have hunknown : ∀ symbol, (isItaniumSymbol symbol && !(Demangler.fresh commands).knows symbol) =
        isItaniumSymbol symbol := fun symbol => Bool.and_true _
    rw [Demangler.pending, funext hunknown]
    refine eraseDups_eq_self (List.Nodup.filter _ ?_)
    rw [symbolsToAsk_eq]
    exact nodup_eraseDups _
  have hmem : ∀ symbol, symbol ∈ (snapshot.symbolsToAsk .itanium).filter isItaniumSymbol ↔
      isItaniumSymbol symbol = true ∧ snapshot.tableEntry? .itanium symbol = none ∧
        snapshot.Bears symbol := by
    intro symbol
    rw [List.mem_filter, mem_symbolsToAsk_iff]
    constructor
    · rintro ⟨⟨-, hsilent, hborne⟩, hitanium⟩
      exact ⟨hitanium, hsilent, hborne⟩
    · rintro ⟨hitanium, hsilent, hborne⟩
      exact ⟨⟨ne_empty_of_isItaniumSymbol hitanium, hsilent, hborne⟩, hitanium⟩
  rw [hfilter]
  refine ⟨?_, hmem, ?_⟩
  · rw [← hfilter]
    exact nodup_eraseDups _
  · have hordered := pairwise_eraseDups_filterMap (snapshot.silentSymbol? .itanium)
      hwf.pairwise_sortedFunctions
    rw [← symbolsToAsk_eq] at hordered
    refine (hordered.filter isItaniumSymbol).imp_of_mem ?_
    rintro first second - hsecond ⟨entry, hentry, hname, hlater⟩
    obtain ⟨hitanium, hsilent, -⟩ := (hmem second).1 hsecond
    refine ⟨entry, mem_sortedFunctions.1 hentry, (silentSymbol?_eq_some_iff.1 hname).1, ?_⟩
    intro other hother hsame
    refine hlater other (mem_sortedFunctions.2 hother) (silentSymbol?_eq_some_iff.2 ?_)
    exact ⟨hsame, ne_empty_of_isItaniumSymbol hitanium, hsilent⟩

end Snapshot

end CallGraph
