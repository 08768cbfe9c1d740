import CallGraph.Document.Basic
import CallGraph.Proofs.Graph.Running
import CallGraph.Proofs.Snapshot.Covering
import CallGraph.Snapshot.Reading

/-!
# The graph of a snapshot

What a snapshot, a filter and a demangler make of each function is said here without an engine, by
looking at all functions and all references. A build from the snapshot is then shown to come to just
this: which names have a record, in what order, whose record it is, and who its callers are.
-/

namespace CallGraph

/-- What a build from a snapshot reads; the fallback is asked where the tables are silent. -/
structure SnapshotBuild where
  snapshot : Snapshot
  filter : NameFilter
  abi : Abi
  fallback : String → Abi → Option String

namespace SnapshotBuild

/-! ### What is to be recorded -/

/-- The text behind a symbol: the word of the tables, or else of the fallback. An empty text counts
as none. -/
def textOf? (build : SnapshotBuild) (symbol : String) : Option String :=
  Text.nonEmpty
    ((build.snapshot.tableEntry? build.abi symbol).getD (build.fallback symbol build.abi))

/-- The canonical name of a function. An empty symbol counts as none. -/
def nameOf? (build : SnapshotBuild) (entry : FunctionEntry) : Option String := do
  let symbol ← Text.nonEmpty entry.name?
  let text ← build.textOf? symbol
  return Name.canonical text

def isLabel (entry : FunctionEntry) : Bool :=
  entry.name?.any fun symbol => Text.occursIn "::".toList symbol.toList

/-- The name under which a function is recorded. -/
def recordedName? (build : SnapshotBuild) (entry : FunctionEntry) : Option String :=
  if entry.code && !isLabel entry then (build.nameOf? entry).filter build.filter.accepts else none

/-- The name of the caller at an address: of the function to which the address belongs, which may be
a label. -/
def callerAt? (build : SnapshotBuild) (origin : Address) : Option String :=
  (build.snapshot.owner? origin).bind fun entry =>
    if entry.code then build.nameOf? entry else none

/-- The callers of an address that the filter accepts, one for each reference to it. -/
def callersOf (build : SnapshotBuild) (target : Address) : List String :=
  let references := build.snapshot.references.filter fun reference => reference.target == target
  (references.filterMap fun reference => build.callerAt? reference.source).filter
    build.filter.accepts

def recordOf? (build : SnapshotBuild) (entry : FunctionEntry) : Option CallRecord :=
  (build.recordedName? entry).map fun name =>
    let callers := Text.sortByCodePoint (build.callersOf entry.start)
    ⟨name, .ofNat callers.length, callers⟩

/-- What a record says: it is that of the last function with its name, and lists the callers of that
function in ascending order, as often as they call it. -/
structure Describes (build : SnapshotBuild) (record : CallRecord) : Prop where
  last : ∃ before entry after, build.snapshot.functions = before ++ entry :: after ∧
    build.recordedName? entry = some record.name ∧
    (∀ later ∈ after, build.recordedName? later ≠ some record.name) ∧
    record.callers.Perm (build.callersOf entry.start)
  ascending : record.callers.Pairwise fun a b => Text.codePoints a ≤ Text.codePoints b
  callCount : record.callCount = .ofNat record.callers.length

/-! ### The answers of the engine -/

variable {σ : Type} {build : SnapshotBuild} {entry : FunctionEntry}

def engine (σ : Type) (build : SnapshotBuild) : Engine σ :=
  build.snapshot.index.engine fun symbol abi => return build.fallback symbol abi

def run (build : SnapshotBuild) (tell : BuildEvent → σ → σ) (state : σ) :
    Except Fault Graph.Progress × σ :=
  Graph.build (build.engine σ) build.filter build.abi tell state

theorem canonicalName?_engine (symbol : String) :
    Graph.canonicalName? (build.engine σ) build.abi symbol =
      pure ((build.textOf? symbol).map Name.canonical) := by
  unfold Graph.canonicalName? engine SnapshotIndex.engine textOf?
  dsimp only [Snapshot.index]
  cases build.snapshot.tableEntry? build.abi symbol <;> simp

theorem callerName?_engine (hwf : build.snapshot.WellFormed) (origin : Address) :
    Graph.callerName? (build.engine σ) build.abi origin = pure (build.callerAt? origin) := by
  have hcode : (build.engine σ).isCode origin =
      .ok ((build.snapshot.owner? origin).any FunctionEntry.code) := by
    rw [← Snapshot.covering_eq_owner? hwf]
    simp only [engine, SnapshotIndex.engine, SnapshotIndex.isCode]
    cases build.snapshot.index.covering origin <;> rfl
  have hsymbol : (build.engine σ).enclosingSymbol origin =
      .ok ((build.snapshot.owner? origin).bind FunctionEntry.name?) := by
    rw [← Snapshot.covering_eq_owner? hwf]
    rfl
  rw [Graph.callerName?, hcode, hsymbol, callerAt?]
  cases build.snapshot.owner? origin with
  | none => simp
  | some entry =>
    cases hentry : entry.code with
    | false => simp [hentry]
    | true =>
      cases hname : Text.nonEmpty entry.name? with
      | none => simp [hentry, hname, nameOf?]
      | some symbol =>
        simp [hentry, hname, nameOf?, canonicalName?_engine, Option.map_eq_bind]

theorem callerNames_engine (hwf : build.snapshot.WellFormed) (origins : List Address) :
    Graph.callerNames (build.engine σ) build.abi origins =
      pure (origins.filterMap build.callerAt?) := by
  induction origins with
  | nil => rfl
  | cons origin rest ih =>
    rw [Graph.callerNames, callerName?_engine hwf, ih, pure_bind, pure_bind, List.filterMap_cons]
    cases build.callerAt? origin <;> rfl

/-- The callers before the filter is asked about them. -/
def collectedAt (build : SnapshotBuild) (target : Address) : List String :=
  (build.snapshot.index.origins target).filterMap build.callerAt?

theorem callers_engine_eq (hwf : build.snapshot.WellFormed) (target : Address) :
    Graph.callers (build.engine σ) build.abi target = pure (build.collectedAt target) :=
  callerNames_engine hwf _

theorem callers_engine (hwf : build.snapshot.WellFormed) (target : Address) :
    ∃ collected, Graph.callers (build.engine σ) build.abi target = pure collected ∧
      collected.filter build.filter.accepts = build.callersOf target := by
  refine ⟨build.collectedAt target, callers_engine_eq hwf target, ?_⟩
  rw [collectedAt, SnapshotIndex.origins, List.filterMap_map]
  rfl

theorem isCode_engine (hwf : build.snapshot.WellFormed)
    (hentry : entry ∈ build.snapshot.functions) :
    (build.engine σ).isCode entry.start = .ok entry.code := by
  have hcovering := (Snapshot.covering_eq_some_iff hwf).2 (hwf.isOwner_start hentry)
  simp only [engine, SnapshotIndex.engine, SnapshotIndex.isCode, hcovering]

theorem rawSymbol_engine (hwf : build.snapshot.WellFormed)
    (hentry : entry ∈ build.snapshot.functions) :
    (build.engine σ).rawSymbol entry.start = .ok entry.name? := by
  have hfound : build.snapshot.functions.find? (fun other => other.start == entry.start)
      = some entry := by
    cases hfind : build.snapshot.functions.find? fun other => other.start == entry.start with
    | none => simpa using List.find?_eq_none.1 hfind entry hentry
    | some other =>
      have hstart : other.start = entry.start := by simpa using List.find?_some hfind
      rw [hwf.eq_of_start_eq (List.mem_of_find?_eq_some hfind) hentry hstart]
  simp only [engine, SnapshotIndex.engine, SnapshotIndex.symbolAt]
  dsimp only [Snapshot.index]
  rw [hfound, Option.bind_some]

theorem outcome_engine (hwf : build.snapshot.WellFormed)
    (hentry : entry ∈ build.snapshot.functions) :
    ∃ outcome, Graph.outcome (build.engine σ) build.filter build.abi entry.start = pure outcome ∧
      Graph.record? (.ok outcome) = build.recordOf? entry := by
  obtain ⟨collected, hcollected, hkept⟩ := callers_engine (σ := σ) hwf entry.start
  rw [Graph.outcome, isCode_engine hwf hentry, rawSymbol_engine hwf hentry, recordOf?,
    recordedName?, nameOf?]
  simp only [Query.ofExcept_ok, pure_bind]
  cases hcode : entry.code with
  | false => exact ⟨.skipped .notCode, rfl, rfl⟩
  | true =>
    cases hname : Text.nonEmpty entry.name? with
    | none => exact ⟨.skipped .noSymbol, rfl, by simp [Graph.record?]⟩
    | some symbol =>
      obtain ⟨hentryName, -⟩ := Text.nonEmpty_eq_some_iff.1 hname
      simp only [hentryName, isLabel, Option.any_some, if_true]
      cases hlabel : Text.occursIn "::".toList symbol.toList with
      | true => exact ⟨.skipped .qualifiedSymbol, rfl, rfl⟩
      | false =>
        simp only [canonicalName?_engine, pure_bind]
        cases htext : build.textOf? symbol with
        | none => exact ⟨.skipped .demangleFailed, rfl, by simp [Graph.record?, htext]⟩
        | some text =>
          simp only [Option.map_some]
          by_cases haccepts : build.filter.accepts (Name.canonical text) = true
          · rw [if_pos haccepts, hcollected, pure_bind]
            refine ⟨_, rfl, ?_⟩
            simp [Graph.record?, htext, haccepts, hkept]
          · rw [if_neg haccepts]
            exact ⟨.skipped .rejectedByFilter, rfl, by simp [Graph.record?, htext, haccepts]⟩

/-! ### The graph -/

def answer (build : SnapshotBuild) (state : σ) (address : Address) : Except Fault Outcome :=
  ((Graph.outcome (build.engine σ) build.filter build.abi address).runFrom state).1

theorem exists_answer_eq_ok (hwf : build.snapshot.WellFormed)
    (hentry : entry ∈ build.snapshot.functions) (state : σ) :
    ∃ outcome, Graph.outcome (build.engine σ) build.filter build.abi entry.start = pure outcome ∧
      build.answer state entry.start = .ok outcome ∧
      Graph.record? (build.answer state entry.start) = build.recordOf? entry := by
  obtain ⟨outcome, houtcome, hrecord⟩ := outcome_engine (σ := σ) hwf hentry
  have hok : build.answer state entry.start = .ok outcome := by
    rw [answer, houtcome, Query.runFrom_pure]
  exact ⟨outcome, houtcome, hok, by rw [hok, hrecord]⟩

/-- A build from a well-formed snapshot succeeds, and all that it makes is told by the answers for
the functions. -/
theorem run_eq_progressOn (hwf : build.snapshot.WellFormed) (tell : BuildEvent → σ → σ)
    (state : σ) :
    ∃ final, build.run tell state = (.ok (Graph.progressOn (build.answer state)
      (build.snapshot.functions.map FunctionEntry.start) {}), final) := by
  have hgoes : ∀ address ∈ build.snapshot.functions.map FunctionEntry.start,
      Graph.goesOn (build.answer state address) = true := by
    rw [List.forall_mem_map]
    intro entry hentry
    obtain ⟨outcome, -, hok, -⟩ := exists_answer_eq_ok hwf hentry state
    rw [hok]
    rfl
  have hsettled : ∀ address ∈ build.snapshot.functions.map FunctionEntry.start,
      ∀ begun : σ, True →
        ((Graph.outcome (build.engine σ) build.filter build.abi address).runFrom begun).1
          = build.answer state address ∧ True := by
    rw [List.forall_mem_map]
    intro entry hentry begun _
    obtain ⟨outcome, houtcome, hok, -⟩ := exists_answer_eq_ok hwf hentry state
    rw [houtcome, hok]
    exact ⟨rfl, trivial⟩
  -- The fallback is pure, so that the answers are the same in all states.
  have hstate : (fun _ : σ => True) state := trivial
  obtain ⟨final, -, hfinal⟩ := Graph.buildFrom_of_settled tell (fun _ => True)
    (build.answer state) hgoes hsettled (fun _ _ _ => trivial) {} hstate
  exact ⟨final, hfinal⟩

/-- A build from a well-formed snapshot succeeds, and sets the records of its functions in order. -/
theorem run_eq_ok (hwf : build.snapshot.WellFormed) (tell : BuildEvent → σ → σ) (state : σ) :
    ∃ progress final, build.run tell state = (.ok progress, final) ∧
      progress.graph = Graph.ofRecords (build.snapshot.functions.filterMap build.recordOf?) := by
  obtain ⟨final, hfinal⟩ := run_eq_progressOn hwf tell state
  refine ⟨_, final, hfinal, ?_⟩
  rw [Graph.graph_progressOn, List.filterMap_map]
  refine congrArg Graph.ofRecords (List.filterMap_congr fun entry hentry => ?_)
  obtain ⟨_, -, -, hrecord⟩ := exists_answer_eq_ok hwf hentry state
  exact hrecord

theorem map_name_recordOf? (build : SnapshotBuild) (entries : List FunctionEntry) :
    (entries.filterMap build.recordOf?).map CallRecord.name =
      entries.filterMap build.recordedName? := by
  rw [List.map_filterMap]
  refine List.filterMap_congr fun entry _ => ?_
  rw [recordOf?, Option.map_map]
  exact Option.map_id'

theorem mem_names_iff {name : String} :
    name ∈ (Graph.ofRecords (build.snapshot.functions.filterMap build.recordOf?)).names ↔
      ∃ entry ∈ build.snapshot.functions, build.recordedName? entry = some name := by
  rw [Graph.names_ofRecords, map_name_recordOf?, List.mem_eraseDups, List.mem_filterMap]

theorem describes_of_mem {record : CallRecord}
    (hrecord : record ∈
      (Graph.ofRecords (build.snapshot.functions.filterMap build.recordOf?)).records) :
    build.Describes record := by
  rw [Graph.mem_records_iff, Graph.get?_ofRecords, ← List.filterMap_reverse,
    List.find?_filterMap, Option.bind_eq_some_iff] at hrecord
  obtain ⟨entry, hfound, hentry⟩ := hrecord
  -- The functions were searched from behind: those passed over on the way come later.
  rw [List.find?_eq_some_iff_append] at hfound
  obtain ⟨-, after, before, hsplit, hlater⟩ := hfound
  obtain ⟨name, hname, rfl⟩ := Option.map_eq_some_iff.1 hentry
  refine ⟨⟨before.reverse, entry, after.reverse, ?_, hname, ?_, ?_⟩, ?_, rfl⟩
  · rw [← List.reverse_reverse build.snapshot.functions, hsplit]
    simp
  · intro later hmem hsame
    have hdiffers := hlater later (List.mem_reverse.1 hmem)
    rw [recordOf?, hsame] at hdiffers
    simp at hdiffers
  · exact Text.sortByCodePoint_perm _
  · exact (Text.pairwise_sortByCodePoint _).imp fun h => Text.isLE_compareByCodePoint_iff.1 h

/-- A snapshot with a function inside another one, each of which calls the other. -/
def nestedValue : Json :=
  .object
    [("functions", .array
      [.object [("start", .string "0x10"), ("end", .string "0x40"), ("name", .string "outer()")],
        .object [("start", .nat 32), ("end", .nat 48), ("name", .string "inner(int)")]]),
      ("references", .array
        [.object [("from", .string "0x12"), ("to", .nat 32)],
          .object [("from", .nat 40), ("to", .string "0x10")],
          .object [("from", .nat 56), ("to", .nat 32)]])]

/-- A build from that snapshot; symbols are taken for the texts behind them. -/
def nested : SnapshotBuild where
  snapshot :=
    ⟨[⟨16, some 64, some "outer()", true⟩, ⟨32, some 48, some "inner(int)", true⟩],
      [⟨18, 32⟩, ⟨40, 16⟩, ⟨56, 32⟩], []⟩
  filter := ⟨[], []⟩
  abi := .itanium
  fallback symbol _ := some symbol

/-- The graph of a snapshot is the specified one. Its names are those under which functions are to
be recorded, in the order in which they first come up, and every record is described. -/
theorem run_exact {value : Option Json} (h : Snapshot.ofJson value = .ok build.snapshot)
    (tell : BuildEvent → σ → σ) (state : σ) :
    ∃ progress final, build.run tell state = (.ok progress, final) ∧
      progress.graph.names =
        (build.snapshot.functions.filterMap build.recordedName?).eraseDups ∧
      ∀ record ∈ progress.graph.records, build.Describes record := by
  obtain ⟨progress, final, hrun, hgraph⟩ :=
    run_eq_ok (Snapshot.wellFormed_of_ofJson h) tell state
  refine ⟨progress, final, hrun, ?_, ?_⟩
  · rw [hgraph, Graph.names_ofRecords, map_name_recordOf?]
  · intro record hrecord
    rw [hgraph] at hrecord
    exact describes_of_mem hrecord

theorem run_exact_nested :
    Snapshot.ofJson (some nestedValue) = .ok nested.snapshot ∧
      ∃ progress final, nested.run (fun _ state => state) () = (.ok progress, final) ∧
        progress.graph.names = ["outer()", "inner(int)"] ∧
        ∀ record ∈ progress.graph.records, nested.Describes record := by
  have haccepted : Snapshot.ofJson (some nestedValue) = .ok nested.snapshot := by decide +kernel
  have hnames : (nested.snapshot.functions.filterMap nested.recordedName?).eraseDups
      = ["outer()", "inner(int)"] := by decide +kernel
  rw [← hnames]
  exact ⟨haccepted, run_exact haccepted (fun _ state => state) ()⟩

theorem mem_callersOf {target : Address} {caller : String} (hwf : build.snapshot.WellFormed)
    (hcaller : caller ∈ build.callersOf target) :
    build.filter.accepts caller = true ∧ ∃ entry ∈ build.snapshot.functions,
      entry.code = true ∧ build.nameOf? entry = some caller := by
  obtain ⟨hfound, haccepts⟩ := List.mem_filter.1 hcaller
  obtain ⟨reference, -, hat⟩ := List.mem_filterMap.1 hfound
  obtain ⟨entry, howner, hname⟩ := Option.bind_eq_some_iff.1 hat
  refine ⟨haccepts, entry, ((Snapshot.owner?_eq_some_iff hwf).1 howner).mem, ?_⟩
  simpa using hname

theorem recordedName?_eq_some {caller : String} (haccepts : build.filter.accepts caller = true)
    (hcode : entry.code = true) (hname : build.nameOf? entry = some caller)
    (hlabel : isLabel entry = false) : build.recordedName? entry = some caller := by
  rw [recordedName?, hcode, hlabel, hname]
  exact Option.filter_some_pos haccepts

/-- The graph of a snapshot is closed: a caller has a record of its own, unless all functions of its
name are labels. Where no function is a label, all usages of the document are keys of it. -/
theorem callers_closed {value : Option Json} (h : Snapshot.ofJson value = .ok build.snapshot)
    (tell : BuildEvent → σ → σ) (state : σ) :
    ∃ progress final, build.run tell state = (.ok progress, final) ∧
      (∀ record ∈ progress.graph.records, ∀ caller ∈ record.callers,
        caller ∈ progress.graph.names ∨
          ∀ entry ∈ build.snapshot.functions, entry.code = true →
            build.nameOf? entry = some caller → isLabel entry = true) ∧
      ((∀ entry ∈ build.snapshot.functions, isLabel entry = false) →
        ∀ member ∈ Document.ofGraph progress.graph, ∀ usage ∈ member.2.usages,
          ∃ entry, (usage, entry) ∈ Document.ofGraph progress.graph) := by
  have hwf := Snapshot.wellFormed_of_ofJson h
  obtain ⟨progress, final, hrun, hgraph⟩ := run_eq_ok hwf tell state
  have hcallers : ∀ record ∈ progress.graph.records, ∀ caller ∈ record.callers,
      ∃ target, caller ∈ build.callersOf target := by
    intro record hrecord caller hcaller
    rw [hgraph] at hrecord
    obtain ⟨-, entry, -, -, -, -, hperm⟩ := (describes_of_mem hrecord).last
    exact ⟨entry.start, hperm.mem_iff.1 hcaller⟩
  have hnamed : ∀ caller target, caller ∈ build.callersOf target →
      ∀ entry ∈ build.snapshot.functions, entry.code = true →
        build.nameOf? entry = some caller → isLabel entry = false →
          caller ∈ progress.graph.names := by
    intro caller target hcaller entry hentry hcode hname hlabel
    rw [hgraph, mem_names_iff]
    exact ⟨entry, hentry, recordedName?_eq_some (mem_callersOf hwf hcaller).1 hcode hname hlabel⟩
  refine ⟨progress, final, hrun, ?_, ?_⟩
  · intro record hrecord caller hcaller
    obtain ⟨target, htarget⟩ := hcallers record hrecord caller hcaller
    by_cases habsent : caller ∈ progress.graph.names
    · exact .inl habsent
    · refine .inr fun entry hentry hcode hname => ?_
      by_contra hlabel
      rw [Bool.not_eq_true] at hlabel
      exact habsent (hnamed caller target htarget entry hentry hcode hname hlabel)
  · intro hplain member hmember usage husage
    obtain ⟨record, hrecord, rfl⟩ := List.mem_map.1 hmember
    obtain ⟨target, htarget⟩ := hcallers record hrecord usage husage
    obtain ⟨-, entry, hentry, hcode, hname⟩ := mem_callersOf hwf htarget
    have hkey := hnamed usage target htarget entry hentry hcode hname (hplain entry hentry)
    obtain ⟨own, hown, rfl⟩ := List.mem_map.1 hkey
    exact ⟨.ofRecord own, List.mem_map.2 ⟨own, hown, rfl⟩⟩

theorem callers_closed_nested :
    Snapshot.ofJson (some nestedValue) = .ok nested.snapshot ∧
      (∀ entry ∈ nested.snapshot.functions, isLabel entry = false) ∧
      ∃ progress final, nested.run (fun _ state => state) () = (.ok progress, final) ∧
        ∀ member ∈ Document.ofGraph progress.graph, ∀ usage ∈ member.2.usages,
          ∃ entry, (usage, entry) ∈ Document.ofGraph progress.graph := by
  have haccepted : Snapshot.ofJson (some nestedValue) = .ok nested.snapshot := by decide +kernel
  have hplain : ∀ entry ∈ nested.snapshot.functions, isLabel entry = false := by decide +kernel
  obtain ⟨progress, final, hrun, -, hclosed⟩ :=
    callers_closed haccepted (fun _ state => state) ()
  exact ⟨haccepted, hplain, progress, final, hrun, hclosed hplain⟩

end SnapshotBuild

end CallGraph
