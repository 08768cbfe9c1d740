import CallGraph.Proofs.Graph.Guarding

/-!
# Stricter filters

A filter is asked twice in the work on a function: about the name of the function before its callers
are collected, and about each caller after. Two builds that differ in their filters alone, one of
them stricter, are followed side by side here. After every function the graph of the stricter one is
the other graph with the rejected records and callers left out, so that no entry added to a filter
can add to a graph, change its order, or change which of several functions of one name is recorded.
-/

namespace CallGraph

/-! ### Graphs with names left out -/

namespace CallRecord

/-- The record with only those of its callers that a filter accepts. -/
def narrow (filter : NameFilter) (record : CallRecord) : CallRecord :=
  let callers := record.callers.filter filter.accepts
  ⟨record.name, .ofNat callers.length, callers⟩

/-- The records whose names a filter accepts, each with only the callers that it accepts. -/
def narrowAll (filter : NameFilter) (records : List CallRecord) : List CallRecord :=
  (records.filter fun record => filter.accepts record.name).map (narrow filter)

theorem narrowAll_cons (filter : NameFilter) (record : CallRecord) (rest : List CallRecord) :
    narrowAll filter (record :: rest) =
      if filter.accepts record.name then record.narrow filter :: narrowAll filter rest
      else narrowAll filter rest := by
  rw [narrowAll, List.filter_cons]
  split <;> rfl

/-- A record that replaces another has its name, so that both are kept or both are left out. -/
theorem narrowAll_insertInto (filter : NameFilter) (record : CallRecord)
    (records : List CallRecord) :
    narrowAll filter (record.insertInto records) =
      if filter.accepts record.name then (record.narrow filter).insertInto (narrowAll filter records)
      else narrowAll filter records := by
  induction records with
  | nil => exact narrowAll_cons filter record []
  | cons present rest ih =>
    have hname : (present.narrow filter).name = (record.narrow filter).name ↔
        present.name = record.name := Iff.rfl
    rw [insertInto]
    split
    · next hsame =>
      simp only [narrowAll_cons, hsame]
      split
      · rw [insertInto, if_pos (hname.2 hsame)]
      · rfl
    · next hdiffer =>
      simp only [narrowAll_cons, ih]
      by_cases hpresent : filter.accepts present.name = true
      · simp only [if_pos hpresent, insertInto, hname, if_neg hdiffer]
        split <;> rfl
      · simp only [if_neg hpresent]

end CallRecord

namespace Graph

theorem eq_of_records_eq {graph other : Graph} (h : graph.records = other.records) :
    graph = other := by
  cases graph
  cases other
  cases h
  rfl

/-- The graph without the records and callers that a filter rejects. -/
def narrow (filter : NameFilter) (graph : Graph) : Graph where
  records := CallRecord.narrowAll filter graph.records
  nodup := by
    have hnames : (CallRecord.narrowAll filter graph.records).map CallRecord.name =
        (graph.records.filter fun record => filter.accepts record.name).map CallRecord.name := by
      rw [CallRecord.narrowAll, List.map_map]
      rfl
    rw [hnames]
    exact graph.nodup.sublist (List.filter_sublist.map _)

theorem narrow_set (filter : NameFilter) (graph : Graph) (record : CallRecord) :
    (graph.set record).narrow filter =
      if filter.accepts record.name then (graph.narrow filter).set (record.narrow filter)
      else graph.narrow filter := by
  have hrecords := CallRecord.narrowAll_insertInto filter record graph.records
  split
  · next haccepts =>
    rw [if_pos haccepts] at hrecords
    exact eq_of_records_eq hrecords
  · next hrejects =>
    rw [if_neg hrejects] at hrecords
    exact eq_of_records_eq hrecords

end Graph

/-! ### Pure engines -/

variable {σ : Type}

namespace Query

variable {α β : Type}

/-- The query neither reads nor changes the state. -/
def IsPure (query : Query σ α) : Prop :=
  ∃ answer, query = ofExcept answer

theorem IsPure.bind {query : Query σ α} {next : α → Query σ β} (hquery : query.IsPure)
    (hnext : ∀ value, (next value).IsPure) : (query >>= next).IsPure := by
  obtain ⟨answer, rfl⟩ := hquery
  cases answer with
  | error fault => exact ⟨.error fault, rfl⟩
  | ok value => exact hnext value

theorem isPure_pure (value : α) : (pure value : Query σ α).IsPure :=
  ⟨.ok value, rfl⟩

theorem isPure_ofExcept (answer : Except Fault α) : (ofExcept answer : Query σ α).IsPure :=
  ⟨answer, rfl⟩

end Query

namespace Engine

/-- All queries of the engine are pure; they may fail. -/
def IsPure (engine : Engine σ) : Prop :=
  ∀ symbol abi, (engine.demangle symbol abi).IsPure

/-- Whatever fault a query of the engine ends in can be told. -/
def IsTellable (engine : Engine σ) (abi : Abi) : Prop :=
  engine.Guards abi (fun _ => True) fun fault => fault.isTellable = true

end Engine

namespace Graph

variable {engine : Engine σ} {filter stricter : NameFilter} {abi : Abi}

theorem canonicalName?_isPure (hengine : engine.IsPure) (abi : Abi) (symbol : String) :
    (canonicalName? engine abi symbol).IsPure :=
  (hengine symbol abi).bind fun _ => Query.isPure_pure _

theorem callerName?_isPure (hengine : engine.IsPure) (abi : Abi) (origin : Address) :
    (callerName? engine abi origin).IsPure := by
  refine (Query.isPure_ofExcept _).bind fun code => ?_
  split
  · refine (Query.isPure_ofExcept _).bind fun symbol? => ?_
    split
    · exact canonicalName?_isPure hengine abi _
    · exact Query.isPure_pure none
  · exact Query.isPure_pure none

theorem callerNames_isPure (hengine : engine.IsPure) (abi : Abi) (origins : List Address) :
    (callerNames engine abi origins).IsPure := by
  induction origins with
  | nil => exact Query.isPure_pure []
  | cons origin rest ih =>
    refine (callerName?_isPure hengine abi origin).bind fun name => ?_
    exact ih.bind fun names => Query.isPure_pure _

theorem callers_isPure (hengine : engine.IsPure) (abi : Abi) (target : Address) :
    (callers engine abi target).IsPure :=
  (Query.isPure_ofExcept _).bind fun origins => callerNames_isPure hengine abi origins

/-! ### Two builds side by side -/

/-- What a stricter filter makes of an answer: its record is narrowed or gone, and it does not end
the build unless the other does. -/
structure Narrows (stricter : NameFilter) (answer narrowed : Except Fault Outcome) : Prop where
  record : record? narrowed =
    ((record? answer).filter fun record => stricter.accepts record.name).map
      (CallRecord.narrow stricter)
  goesOn : goesOn answer = true → goesOn narrowed = true

theorem narrows_error (fault : Fault) : Narrows stricter (.error fault) (.error fault) :=
  ⟨rfl, id⟩

theorem narrows_skipped (reason : Skip) :
    Narrows stricter (.ok (.skipped reason)) (.ok (.skipped reason)) :=
  ⟨rfl, id⟩

theorem narrows_rejected {answer : Except Fault Outcome}
    (hanswer : ∀ record, record? answer = some record → stricter.accepts record.name = false) :
    Narrows stricter answer (.ok (.skipped .rejectedByFilter)) := by
  refine ⟨?_, fun _ => rfl⟩
  cases hrecord : record? answer with
  | none => rfl
  | some record =>
    rw [Option.filter_some_neg]
    · rfl
    · simp [hanswer record hrecord]

theorem accepts_of_stricter (hprefixes : filter.prefixes ⊆ stricter.prefixes)
    (hsubstrings : filter.substrings ⊆ stricter.substrings) {name : String}
    (h : stricter.accepts name = true) : filter.accepts name = true := by
  rw [NameFilter.accepts_iff] at h ⊢
  obtain ⟨hstart, hinside⟩ := h
  exact ⟨fun entry hentry => hstart entry (hprefixes hentry),
    fun entry hentry => hinside entry (hsubstrings hentry)⟩

theorem narrows_recorded
    (haccepts : ∀ name, stricter.accepts name = true → filter.accepts name = true) {name : String}
    (hname : stricter.accepts name = true) (collected : List String) :
    let kept (filter : NameFilter) := Text.sortByCodePoint (collected.filter filter.accepts)
    let recorded (filter : NameFilter) : Outcome :=
      .recorded ⟨name, .ofNat (kept filter).length, kept filter⟩
        (collected.length - (kept filter).length)
    Narrows stricter (.ok (recorded filter)) (.ok (recorded stricter)) := by
  intro kept recorded
  have hkept : (kept filter).filter stricter.accepts = kept stricter := by
    have htwice : (collected.filter filter.accepts).filter stricter.accepts =
        collected.filter stricter.accepts := by
      rw [List.filter_filter]
      refine List.filter_congr fun caller _ => ?_
      cases hcaller : stricter.accepts caller with
      | false => rfl
      | true => rw [haccepts caller hcaller, Bool.and_self]
    rw [Text.filter_sortByCodePoint, htwice]
  refine ⟨?_, fun _ => rfl⟩
  simp only [recorded, record?, Option.filter_some, hname, if_true, Option.map_some,
    CallRecord.narrow, hkept]

/-- Work on a function under the two filters takes the same course up to the question about its
name. -/
theorem outcome_narrows (hengine : engine.IsPure)
    (haccepts : ∀ name, stricter.accepts name = true → filter.accepts name = true)
    (abi : Abi) (address : Address) (state other : σ) :
    Narrows stricter ((outcome engine filter abi address).runFrom state).1
      ((outcome engine stricter abi address).runFrom other).1 := by
  obtain ⟨collected, hcollected⟩ := callers_isPure hengine abi address
  rw [outcome, outcome]
  cases engine.isCode address with
  | error fault => exact narrows_error fault
  | ok code =>
    cases code with
    | false => exact narrows_skipped .notCode
    | true =>
      simp only [Query.ofExcept_ok, pure_bind, if_true]
      cases engine.rawSymbol address with
      | error fault => exact narrows_error fault
      | ok symbol? =>
        simp only [Query.ofExcept_ok, pure_bind]
        cases Text.nonEmpty symbol? with
        | none => exact narrows_skipped .noSymbol
        | some symbol =>
          dsimp only
          split
          · exact narrows_skipped .qualifiedSymbol
          · obtain ⟨name?, hname⟩ := canonicalName?_isPure hengine abi symbol
            rw [hname]
            rcases name? with fault | _ | name
            · exact narrows_error fault
            · exact narrows_skipped .demangleFailed
            · simp only [Query.ofExcept_ok, pure_bind, hcollected]
              by_cases hstricter : stricter.accepts name = true
              · rw [if_pos hstricter, if_pos (haccepts name hstricter)]
                cases collected with
                | error fault => exact narrows_error fault
                | ok collected => exact narrows_recorded haccepts hstricter collected
              · -- The other build may still collect callers, and fail at it or record the name.
                rw [if_neg hstricter, Query.runFrom_pure]
                refine narrows_rejected fun record hrecord => ?_
                split at hrecord
                · cases collected with
                  | error fault => cases hrecord
                  | ok collected =>
                    cases hrecord
                    exact Bool.not_eq_true _ ▸ hstricter
                · cases hrecord

theorem graph_afterTurn_narrow (tell : BuildEvent → σ → σ) {address : Address}
    {progress narrowed : Progress} {state other : σ}
    (hturn : Narrows stricter ((outcome engine filter abi address).runFrom state).1
      ((outcome engine stricter abi address).runFrom other).1)
    (hgraph : narrowed.graph = progress.graph.narrow stricter) :
    (afterTurn engine stricter abi tell address narrowed other).1.graph =
      (afterTurn engine filter abi tell address progress state).1.graph.narrow stricter := by
  rw [graph_afterTurn, graph_afterTurn, hturn.record, hgraph]
  cases hrecord : record? ((outcome engine filter abi address).runFrom state).1 with
  | none => rfl
  | some record =>
    rw [narrow_set]
    cases hname : stricter.accepts record.name with
    | true => rw [Option.filter_some_pos (by exact hname), Option.map_some, if_pos rfl]
    | false => rw [Option.filter_some_neg (by exact hname), Option.map_none, if_neg (by decide)]

variable {tell : BuildEvent → σ → σ}

/-- Where the one build succeeds, the stricter one does, and ends with the graph narrowed. -/
theorem buildFrom_narrow (hengine : engine.IsPure)
    (haccepts : ∀ name, stricter.accepts name = true → filter.accepts name = true)
    {addresses : List Address} {progress narrowed last : Progress} {state other final : σ}
    (hgraph : narrowed.graph = progress.graph.narrow stricter)
    (h : buildFrom engine filter abi tell addresses progress state = (.ok last, final)) :
    ∃ lastNarrowed finalNarrowed,
      buildFrom engine stricter abi tell addresses narrowed other
        = (.ok lastNarrowed, finalNarrowed) ∧
      lastNarrowed.graph = last.graph.narrow stricter := by
  induction addresses generalizing progress narrowed state other with
  | nil =>
    rw [buildFrom, Prod.mk.injEq, Except.ok.injEq] at h
    exact ⟨narrowed, other, rfl, h.1 ▸ hgraph⟩
  | cons address rest ih =>
    obtain ⟨hgoes, hrest⟩ := buildFrom_cons_eq_ok_iff.1 h
    have hturn := outcome_narrows hengine haccepts abi address state other
    obtain ⟨lastNarrowed, finalNarrowed, hbuild, hlast⟩ :=
      ih (graph_afterTurn_narrow tell hturn hgraph) hrest
    exact ⟨lastNarrowed, finalNarrowed,
      buildFrom_cons_eq_ok_iff.2 ⟨hturn.goesOn hgoes, hbuild⟩, hlast⟩

/-- Adding entries to a filter comes to the same as leaving out of the finished graph what they
reject. A build ends without a graph only where the functions can not be listed, with either filter,
or where a fault can not be told, which a stricter filter may avoid but not bring about. -/
theorem build_narrow (hengine : engine.IsPure) (hprefixes : filter.prefixes ⊆ stricter.prefixes)
    (hsubstrings : filter.substrings ⊆ stricter.substrings) (abi : Abi)
    (tell : BuildEvent → σ → σ) (state : σ) :
    (∀ progress final, build engine filter abi tell state = (.ok progress, final) →
      ∃ narrowed last, build engine stricter abi tell state = (.ok narrowed, last) ∧
        narrowed.graph = progress.graph.narrow stricter) ∧
    (∀ addresses, engine.functions = .ok addresses → engine.IsTellable abi →
      ∃ progress final, build engine filter abi tell state = (.ok progress, final)) ∧
    ∀ fault, engine.functions = .error fault →
      build engine filter abi tell state = (.error fault, state) ∧
        build engine stricter abi tell state = (.error fault, state) := by
  refine ⟨?_, ?_, ?_⟩
  · intro progress final h
    rw [build] at h ⊢
    cases hfunctions : engine.functions with
    | error fault =>
      rw [hfunctions] at h
      cases h
    | ok addresses =>
      rw [hfunctions] at h
      have haccepts : ∀ name, stricter.accepts name = true → filter.accepts name = true :=
        fun name => accepts_of_stricter hprefixes hsubstrings
      exact buildFrom_narrow hengine haccepts rfl h
  · intro addresses hfunctions htellable
    obtain ⟨progress, final, hbuild, -⟩ : ∃ progress final,
        buildFrom engine filter abi tell addresses {} state = (.ok progress, final) ∧ True :=
      buildFrom_guards htellable (fun _ h => h) (fun _ _ _ => trivial) addresses {} trivial
    exact ⟨progress, final, by rw [build, hfunctions]; exact hbuild⟩
  · intro fault hfunctions
    rw [build, build, hfunctions]
    exact ⟨rfl, rfl⟩

/-- An engine with three functions, the first of which is called from the second. Of the third it can
not be told whether it is code. -/
def sampleEngine : Engine Unit where
  functions := .ok [1, 2, 3]
  isCode address := if address = 3 then .error (.error "Error" "no such item") else .ok true
  rawSymbol address := .ok (some (if address = 1 then "run" else "init"))
  referencesTo address := .ok (if address = 1 then [2] else [])
  enclosingSymbol _ := .ok (some "init")
  demangle symbol _ := return some (if symbol = "init" then "std::init" else symbol)

theorem build_narrow_sample :
    sampleEngine.IsPure ∧ sampleEngine.IsTellable .itanium ∧
      ∃ progress final narrowed last,
        build sampleEngine ⟨[], []⟩ .itanium (fun _ state => state) () = (.ok progress, final) ∧
        build sampleEngine ⟨["std::"], []⟩ .itanium (fun _ state => state) ()
          = (.ok narrowed, last) ∧
        progress.graph.records =
          [⟨"run", .ofNat 1, ["std::init"]⟩, ⟨"std::init", .ofNat 0, []⟩] ∧
        narrowed.graph.records = [⟨"run", .ofNat 0, []⟩] := by
  have hpure : sampleEngine.IsPure := fun symbol _ => ⟨.ok _, rfl⟩
  have htellable : sampleEngine.IsTellable .itanium := by
    refine ⟨fun address fault hfault => ?_, fun _ _ hfault => (nomatch hfault),
      fun _ _ hfault => (nomatch hfault), fun _ _ hfault => (nomatch hfault),
      fun symbol _ => Query.guards_pure _⟩
    simp only [sampleEngine] at hfault
    split at hfault
    · cases hfault
      rfl
    · cases hfault
  have hprefixes : (⟨[], []⟩ : NameFilter).prefixes ⊆ (⟨["std::"], []⟩ : NameFilter).prefixes := by
    simp
  have hsubstrings :
      (⟨[], []⟩ : NameFilter).substrings ⊆ (⟨["std::"], []⟩ : NameFilter).substrings := by
    simp
  obtain ⟨hnarrow, hsucceeds, -⟩ :=
    build_narrow hpure hprefixes hsubstrings .itanium (fun _ state => state) ()
  obtain ⟨progress, final, hbuild⟩ := hsucceeds [1, 2, 3] rfl htellable
  obtain ⟨narrowed, last, hstricter, hgraph⟩ := hnarrow progress final hbuild
  have hrecords : progress.graph.records =
      [⟨"run", .ofNat 1, ["std::init"]⟩, ⟨"std::init", .ofNat 0, []⟩] := by
    have hcomputed : ((build sampleEngine ⟨[], []⟩ .itanium (fun _ state => state) ()).1.toOption.map
        fun progress => progress.graph.records) =
          some [⟨"run", .ofNat 1, ["std::init"]⟩, ⟨"std::init", .ofNat 0, []⟩] := by
      decide +kernel
    rw [hbuild] at hcomputed
    exact Option.some.inj hcomputed
  have hnarrowed : narrowed.graph.records =
      CallRecord.narrowAll ⟨["std::"], []⟩ progress.graph.records := by
    rw [hgraph]
    rfl
  refine ⟨hpure, htellable, progress, final, narrowed, last, hbuild, hstricter, hrecords, ?_⟩
  rw [hnarrowed, hrecords]
  decide +kernel

end Graph

end CallGraph
