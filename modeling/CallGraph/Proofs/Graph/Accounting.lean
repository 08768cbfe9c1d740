import CallGraph.Command.Dump
import CallGraph.Proofs.Graph.Counting
import CallGraph.Proofs.Graph.Narrowing
import Mathlib.Algebra.BigOperators.Group.List.Basic

/-!
# Every function is accounted for

Where the answers of an engine depend on nothing but the questions, a build is told by what comes of
each function. A fault strikes before anything of its function is counted or recorded, so that it costs
that function alone. What a build tells can be read off the answers, in the order of the functions: one
event for each fault, and one for each record whose name has come up before.
-/

namespace CallGraph

namespace Graph

variable {σ : Type} {engine : Engine σ} {filter : NameFilter} {abi : Abi}

/-! ### One function -/

theorem outcome_isPure (hengine : engine.IsPure) (filter : NameFilter) (abi : Abi)
    (address : Address) : (outcome engine filter abi address).IsPure := by
  refine (Query.isPure_ofExcept _).bind fun code => ?_
  split
  · refine (Query.isPure_ofExcept _).bind fun symbol? => ?_
    split
    · exact Query.isPure_pure _
    · split
      · exact Query.isPure_pure _
      · refine (canonicalName?_isPure hengine abi _).bind fun name? => ?_
        split
        · exact Query.isPure_pure _
        · split
          · exact (callers_isPure hengine abi address).bind fun _ => Query.isPure_pure _
          · exact Query.isPure_pure _
  · exact Query.isPure_pure _

/-- What comes of each function, and which callers were collected for a function that is recorded. -/
structure Answers (engine : Engine σ) (filter : NameFilter) (abi : Abi)
    (answer : Address → Except Fault Outcome) (collected : Address → List String) : Prop where
  outcome : ∀ address, outcome engine filter abi address = Query.ofExcept (answer address)
  collected : ∀ address record dropped, answer address = .ok (.recorded record dropped) →
    callers engine abi address = pure (collected address) ∧
      record.callers = Text.sortByCodePoint ((collected address).filter filter.accepts) ∧
      dropped = (collected address).length - record.callers.length

theorem exists_answers (hengine : engine.IsPure) (filter : NameFilter) (abi : Abi) (state : σ) :
    ∃ answer collected, Answers engine filter abi answer collected := by
  choose answer hanswer using outcome_isPure hengine filter abi
  choose gathered hgathered using callers_isPure hengine abi
  refine ⟨answer, fun address => (gathered address).toOption.getD [], hanswer, ?_⟩
  intro address record dropped hrecorded
  have hrun : (outcome engine filter abi address).runFrom state =
      (.ok (.recorded record dropped), state) := by
    rw [hanswer, hrecorded, Query.runFrom_ofExcept]
  obtain ⟨recording⟩ := outcome_recorded hrun
  have hcallers : (callers engine abi address).runFrom recording.middle =
      (.ok recording.collected, state) := by
    rw [callers, recording.referencesTo]
    exact recording.callerNames
  have hgiven : gathered address = .ok recording.collected := by
    rw [hgathered, Query.runFrom_ofExcept] at hcallers
    exact (Prod.mk.inj hcallers).1
  rw [hgathered, hgiven]
  exact ⟨rfl, recording.callers, recording.dropped⟩

theorem Answers.droppedBy_eq {answer : Address → Except Fault Outcome}
    {collected : Address → List String} (h : Answers engine filter abi answer collected)
    (address : Address) :
    droppedBy (answer address) =
      if (record? (answer address)).isSome then
        (collected address).length - ((collected address).filter filter.accepts).length
      else 0 := by
  cases hanswer : answer address with
  | error fault => rfl
  | ok outcome =>
    cases outcome with
    | skipped reason => rfl
    | recorded record dropped =>
      obtain ⟨-, hkept, hdropped⟩ := h.collected address record dropped hanswer
      rw [hkept, (Text.sortByCodePoint_perm _).length_eq] at hdropped
      exact hdropped

/-! ### What is told -/

/-- What is told of a function, given the records that came before: its fault, or that its record takes
the place of the last one of the same name. -/
def told (earlier : List CallRecord) (address : Address) :
    Except Fault Outcome → Option BuildEvent
  | .error fault => some (.failed address fault)
  | .ok (.skipped _) => none
  | .ok (.recorded record _) =>
    (earlier.reverse.find? fun previous => previous.name == record.name).map fun previous =>
      .collision record.name address previous.callCount

/-- All that is told of functions whose answers are given, in their order. -/
def toldOn (answer : Address → Except Fault Outcome) :
    List CallRecord → List Address → List BuildEvent
  | _, [] => []
  | earlier, address :: rest =>
    (told earlier address (answer address)).toList ++
      toldOn answer (earlier ++ (record? (answer address)).toList) rest

def tellAll (tell : BuildEvent → σ → σ) (events : List BuildEvent) (state : σ) : σ :=
  events.foldl (fun state event => tell event state) state

theorem snd_advance {earlier : List CallRecord} {progress : Progress}
    (hgraph : progress.graph = ofRecords earlier) (address : Address)
    (answer : Except Fault Outcome) :
    (progress.enter.advance address answer).2 = told earlier address answer := by
  rcases answer with fault | ⟨record, dropped⟩ | reason
  · rfl
  · rw [advance_recorded, told, ← get?_ofRecords, ← hgraph]
    rfl
  · rfl

theorem graph_advance_ofRecords {earlier : List CallRecord} {progress : Progress}
    (hgraph : progress.graph = ofRecords earlier) (address : Address)
    (answer : Except Fault Outcome) :
    (progress.enter.advance address answer).1.graph =
      ofRecords (earlier ++ (record? answer).toList) := by
  rw [graph_advance, hgraph]
  cases record? answer with
  | none => rw [Option.toList_none, List.append_nil]
  | some record => rw [Option.toList_some, ofRecords_concat]

theorem buildFrom_of_answers (tell : BuildEvent → σ → σ) {answer : Address → Except Fault Outcome}
    (hanswer : ∀ address, outcome engine filter abi address = Query.ofExcept (answer address))
    {addresses : List Address} (hgoes : ∀ address ∈ addresses, goesOn (answer address) = true)
    {earlier : List CallRecord} {progress : Progress} (hgraph : progress.graph = ofRecords earlier)
    (state : σ) :
    buildFrom engine filter abi tell addresses progress state =
      (.ok (progressOn answer addresses progress),
        tellAll tell (toldOn answer earlier addresses) state) := by
  induction addresses generalizing earlier progress state with
  | nil => rfl
  | cons address rest ih =>
    obtain ⟨hfirst, hrest⟩ := List.forall_mem_cons.1 hgoes
    have hstate : (afterTurn engine filter abi tell address progress state).2 =
        tellAll tell (told earlier address (answer address)).toList state := by
      rw [afterTurn, takeIn, hanswer, Query.runFrom_ofExcept, ← snd_advance hgraph]
      dsimp only
      split
      · next hevent => rw [hevent]; rfl
      · next hevent => rw [hevent]; rfl
    have hprogress : (afterTurn engine filter abi tell address progress state).1 =
        (progress.enter.advance address (answer address)).1 := by
      rw [afterTurn, fst_takeIn, hanswer, Query.runFrom_ofExcept]
    rw [buildFrom_cons_eq_ok_iff, hanswer, Query.runFrom_ofExcept, hstate, hprogress]
    refine ⟨hfirst, ?_⟩
    rw [ih hrest (graph_advance_ofRecords hgraph address (answer address)), toldOn, tellAll,
      tellAll, tellAll, List.foldl_append]
    rfl

/-! ### What is counted -/

/-- The number of records of a level that a log holds for the events. -/
def recordsAt (level : Log.Level) (context : Json.Members) (events : List BuildEvent) : Nat :=
  (events.map (BuildEvent.record context)).countP fun record => record.level = level

theorem recordsAt_append (level : Log.Level) (context : Json.Members)
    (events others : List BuildEvent) :
    recordsAt level context (events ++ others) =
      recordsAt level context events + recordsAt level context others := by
  rw [recordsAt, List.map_append, List.countP_append]
  rfl

/-- A counter of faults or collisions goes up exactly when one is told. -/
theorem stats_advance (progress : Progress) (address : Address) (answer : Except Fault Outcome)
    (context : Json.Members) :
    (progress.enter.advance address answer).1.stats.errors = progress.stats.errors +
        recordsAt .error context (progress.enter.advance address answer).2.toList ∧
      (progress.enter.advance address answer).1.stats.collisions = progress.stats.collisions +
        recordsAt .warn context (progress.enter.advance address answer).2.toList := by
  rcases answer with fault | ⟨record, dropped⟩ | reason
  · exact ⟨rfl, rfl⟩
  · rw [advance_recorded]
    cases (progress.enter.graph.replace record).1 <;> exact ⟨rfl, rfl⟩
  · cases reason <;> exact ⟨rfl, rfl⟩

theorem stats_progressOn (answer : Address → Except Fault Outcome) (addresses : List Address)
    {earlier : List CallRecord} {progress : Progress} (hgraph : progress.graph = ofRecords earlier)
    (context : Json.Members) :
    (progressOn answer addresses progress).stats.errors = progress.stats.errors +
        recordsAt .error context (toldOn answer earlier addresses) ∧
      (progressOn answer addresses progress).stats.collisions = progress.stats.collisions +
        recordsAt .warn context (toldOn answer earlier addresses) := by
  induction addresses generalizing earlier progress with
  | nil => exact ⟨rfl, rfl⟩
  | cons address rest ih =>
    obtain ⟨herrors, hcollisions⟩ := stats_advance progress address (answer address) context
    obtain ⟨hlaterErrors, hlaterCollisions⟩ :=
      ih (graph_advance_ofRecords hgraph address (answer address))
    rw [snd_advance hgraph] at herrors hcollisions
    rw [progressOn, List.foldl_cons, ← progressOn, toldOn, recordsAt_append, recordsAt_append]
    omega

theorem length_eq_sum (answers : List (Except Fault Outcome)) :
    answers.length = (answers.filterMap record?).length + answers.countP (skips .notCode) +
      answers.countP (skips .noSymbol) + answers.countP (skips .qualifiedSymbol) +
      answers.countP (skips .demangleFailed) + answers.countP (skips .rejectedByFilter) +
      answers.countP fails := by
  induction answers with
  | nil => rfl
  | cons answer rest ih =>
    have hrecords : ((answer :: rest).filterMap record?).length =
        (record? answer).toList.length + (rest.filterMap record?).length := by
      rw [List.filterMap_cons]
      cases record? answer
      · exact (Nat.zero_add _).symm
      · exact Nat.add_comm _ 1
    have honce : (record? answer).toList.length + (if skips .notCode answer then 1 else 0) +
        (if skips .noSymbol answer then 1 else 0) + (if skips .qualifiedSymbol answer then 1 else 0) +
        (if skips .demangleFailed answer then 1 else 0) +
        (if skips .rejectedByFilter answer then 1 else 0) + (if fails answer then 1 else 0) = 1 := by
      rcases answer with fault | ⟨record, dropped⟩ | reason
      · rfl
      · rfl
      · cases reason <;> rfl
    simp only [List.length_cons, List.countP_cons, hrecords]
    omega

theorem Counts.functions_eq_sum {answers : List (Except Fault Outcome)} {progress : Progress}
    (h : Counts answers progress) :
    progress.stats.functions = progress.stats.recorded + progress.stats.skippedNotCode +
      progress.stats.skippedNoSymbol + progress.stats.skippedQualifiedSymbol +
      progress.stats.skippedDemangleFailed + progress.stats.rejectedByFilter +
      progress.stats.errors := by
  have hnotCode : progress.stats.skippedNotCode = _ := h.skipped .notCode
  have hnoSymbol : progress.stats.skippedNoSymbol = _ := h.skipped .noSymbol
  have hqualified : progress.stats.skippedQualifiedSymbol = _ := h.skipped .qualifiedSymbol
  have hdemangle : progress.stats.skippedDemangleFailed = _ := h.skipped .demangleFailed
  have hrejected : progress.stats.rejectedByFilter = _ := h.skipped .rejectedByFilter
  rw [h.functions, length_eq_sum, h.recorded, h.errors, hnotCode, hnoSymbol, hqualified, hdemangle,
    hrejected]

/-! ### Leaving out the failures -/

theorem sum_droppedBy_filter (answers : List (Except Fault Outcome)) :
    ((answers.filter fun answer => !fails answer).map droppedBy).sum =
      (answers.map droppedBy).sum := by
  induction answers with
  | nil => rfl
  | cons answer rest ih =>
    cases answer with
    | error fault =>
      rw [List.filter_cons_of_neg (by simp [fails]), ih, List.map_cons, List.sum_cons]
      exact (Nat.zero_add _).symm
    | ok outcome =>
      rw [List.filter_cons_of_pos (by simp [fails]), List.map_cons, List.map_cons, List.sum_cons,
        List.sum_cons, ih]

variable {answers : List (Except Fault Outcome)} {progress other : Progress}

/-- What comes of a function that does not fail is counted alike with and without those that do. -/
theorem Counts.without_failures (h : Counts answers progress)
    (hother : Counts (answers.filter fun answer => !fails answer) other) :
    other.graph = progress.graph ∧
      other.stats = { progress.stats with
        functions := progress.stats.functions - progress.stats.errors, errors := 0 } := by
  have hrecords : (answers.filter fun answer => !fails answer).filterMap record? =
      answers.filterMap record? := by
    rw [List.filterMap_filter]
    refine List.filterMap_congr fun answer _ => ?_
    cases answer <;> rfl
  have hgraph : other.graph = progress.graph := by
    rw [h.graph, hother.graph, hrecords]
  have hrecorded : other.stats.recorded = progress.stats.recorded := by
    rw [h.recorded, hother.recorded, hrecords]
  refine ⟨hgraph, Stats.eq_of_counters_eq ?_ hrecorded ?_ ?_ ?_ ?_⟩
  · have hsplit := List.length_eq_countP_add_countP fails (l := answers)
    simp only [Bool.not_eq_true, Bool.decide_eq_false] at hsplit
    show other.stats.functions = progress.stats.functions - progress.stats.errors
    rw [hother.functions, h.functions, h.errors, ← List.countP_eq_length_filter]
    omega
  · intro reason
    have hskipped : ({ progress.stats with
        functions := progress.stats.functions - progress.stats.errors, errors := 0 } :
          Stats).skipped reason = progress.stats.skipped reason := by
      cases reason <;> rfl
    rw [hskipped, h.skipped, hother.skipped, List.countP_filter]
    refine List.countP_congr fun answer _ => ?_
    cases answer <;> simp [skips, fails]
  · show other.stats.droppedCallers = progress.stats.droppedCallers
    rw [h.dropped, hother.dropped, sum_droppedBy_filter]
  · show other.stats.errors = 0
    rw [hother.errors, List.countP_eq_zero]
    intro answer hanswer
    simpa using (List.mem_filter.1 hanswer).2
  · show other.stats.collisions = progress.stats.collisions
    have hcollisions := h.collisions
    have hcollisionsOther := hother.collisions
    rw [hgraph] at hcollisionsOther
    omega

def listing (engine : Engine σ) (addresses : List Address) : Engine σ :=
  { engine with functions := .ok addresses }

theorem callerNames_listing (engine : Engine σ) (addresses : List Address) (abi : Abi)
    (origins : List Address) :
    callerNames (listing engine addresses) abi origins = callerNames engine abi origins := by
  induction origins with
  | nil => rfl
  | cons origin rest ih =>
    rw [callerNames, callerNames, ih]
    rfl

theorem outcome_listing (engine : Engine σ) (addresses : List Address) (filter : NameFilter)
    (abi : Abi) (address : Address) :
    outcome (listing engine addresses) filter abi address = outcome engine filter abi address := by
  have hcallers : callers (listing engine addresses) abi address = callers engine abi address := by
    rw [callers, callers]
    exact congrArg (_ >>= ·) (funext (callerNames_listing engine addresses abi))
  rw [outcome, outcome, hcallers]
  rfl

/-! ### Whole builds -/

theorem goesOn_of_isTellable {answer : Address → Except Fault Outcome}
    (hanswer : ∀ address, outcome engine filter abi address = Query.ofExcept (answer address))
    (htellable : engine.IsTellable abi) (state : σ) (address : Address) :
    goesOn (answer address) = true := by
  obtain ⟨-, hfaults⟩ := outcome_guards htellable filter address state trivial
  rw [hanswer, Query.runFrom_ofExcept] at hfaults
  cases hgiven : answer address with
  | ok outcome => rfl
  | error fault => exact hfaults fault hgiven

theorem Answers.sum_droppedBy {answer : Address → Except Fault Outcome}
    {collected : Address → List String} (h : Answers engine filter abi answer collected)
    (addresses : List Address) :
    ((addresses.map answer).map droppedBy).sum =
      ((addresses.filter fun address => (record? (answer address)).isSome).map fun address =>
        (collected address).length - ((collected address).filter filter.accepts).length).sum := by
  have hdropped : droppedBy ∘ answer = fun address =>
      if (record? (answer address)).isSome then
        (collected address).length - ((collected address).filter filter.accepts).length
      else 0 := funext h.droppedBy_eq
  rw [List.map_map, hdropped, List.sum_map_ite]
  simp

/-- A build on an engine whose answers depend on the questions alone, and whose faults can all be told,
accounts for every function by what came of it. A fault is told once and counted once, as is a record
that takes the place of another, and a function on which the work fails might as well not be there. -/
theorem build_accounts (hpure : engine.IsPure) (htellable : engine.IsTellable abi)
    {addresses : List Address} (hfunctions : engine.functions = .ok addresses)
    (filter : NameFilter) (tell : BuildEvent → σ → σ) (state : σ) :
    ∃ answer collected progress,
      Answers engine filter abi answer collected ∧
      build engine filter abi tell state =
        (.ok progress, tellAll tell (toldOn answer [] addresses) state) ∧
      Counts (addresses.map answer) progress ∧
      progress.stats.functions = progress.stats.recorded + progress.stats.skippedNotCode +
        progress.stats.skippedNoSymbol + progress.stats.skippedQualifiedSymbol +
        progress.stats.skippedDemangleFailed + progress.stats.rejectedByFilter +
        progress.stats.errors ∧
      progress.stats.collisions ≤ progress.stats.recorded ∧
      progress.graph.size = progress.stats.recorded - progress.stats.collisions ∧
      (∀ context,
        recordsAt .error context (toldOn answer [] addresses) = progress.stats.errors ∧
        recordsAt .warn context (toldOn answer [] addresses) = progress.stats.collisions) ∧
      progress.stats.droppedCallers =
        ((addresses.filter fun address => (record? (answer address)).isSome).map fun address =>
          (collected address).length - ((collected address).filter filter.accepts).length).sum ∧
      ∃ others final,
        build (listing engine (addresses.filter fun address => !fails (answer address))) filter abi
          tell state = (.ok others, final) ∧
        others.graph = progress.graph ∧
        others.stats = { progress.stats with
          functions := progress.stats.functions - progress.stats.errors, errors := 0 } := by
  obtain ⟨answer, collected, hanswers⟩ := exists_answers hpure filter abi state
  have hgoes : ∀ address, goesOn (answer address) = true :=
    goesOn_of_isTellable hanswers.outcome htellable state
  have hempty : ({} : Progress).graph = ofRecords [] := rfl
  have hcounts := counts_progressOn answer addresses
  have hbuild : build engine filter abi tell state = (.ok (progressOn answer addresses {}),
      tellAll tell (toldOn answer [] addresses) state) := by
    rw [build, hfunctions]
    exact buildFrom_of_answers tell hanswers.outcome (fun address _ => hgoes address) hempty state
  have hlogged : ∀ context,
      recordsAt .error context (toldOn answer [] addresses) =
          (progressOn answer addresses {}).stats.errors ∧
        recordsAt .warn context (toldOn answer [] addresses) =
          (progressOn answer addresses {}).stats.collisions := by
    intro context
    obtain ⟨herrors, hcollisions⟩ := stats_progressOn answer addresses hempty context
    rw [herrors, hcollisions]
    exact ⟨(Nat.zero_add _).symm, (Nat.zero_add _).symm⟩
  -- The functions that do not fail are answered alike when only they are listed.
  have hanswersListed : ∀ address,
      outcome (listing engine (addresses.filter fun address => !fails (answer address))) filter abi
        address = Query.ofExcept (answer address) := by
    intro address
    rw [outcome_listing, hanswers.outcome]
  have hgoesListed : ∀ address ∈ addresses.filter fun address => !fails (answer address),
      goesOn (answer address) = true := fun address _ => hgoes address
  have hbuildListed := buildFrom_of_answers tell hanswersListed hgoesListed hempty state
  have hcountsListed := counts_progressOn answer
    (addresses.filter fun address => !fails (answer address))
  have hmapped : (addresses.filter fun address => !fails (answer address)).map answer =
      (addresses.map answer).filter fun answer => !fails answer := by
    rw [List.filter_map]
    rfl
  rw [hmapped] at hcountsListed
  have hcollisions := hcounts.collisions
  exact ⟨answer, collected, _, hanswers, hbuild, hcounts, hcounts.functions_eq_sum, by omega,
    by omega, hlogged, by rw [hcounts.dropped, hanswers.sum_droppedBy], _, _, hbuildListed,
    hcounts.without_failures hcountsListed⟩

/-- An engine whose fourth function has the name of the second. The callers of the first one include an
address of which it can not be told whether it is code. -/
def troubledEngine : Engine (List BuildEvent) where
  functions := .ok [1, 2, 3, 4]
  isCode address :=
    if address = 9 then .error (.value "no such item" true) else .ok (address != 3)
  rawSymbol address := .ok (some (if address = 1 then "run" else "init"))
  referencesTo address := .ok (if address = 1 then [2, 9] else [1, 5])
  enclosingSymbol address := .ok (some (if address = 5 then "main" else "init"))
  demangle symbol _ := return some symbol

def troubledStats : Stats where
  functions := 4
  recorded := 2
  skippedNotCode := 1
  droppedCallers := 2
  errors := 1
  collisions := 1

theorem build_accounts_troubled :
    troubledEngine.IsPure ∧ troubledEngine.IsTellable .itanium ∧
      troubledEngine.functions = .ok [1, 2, 3, 4] ∧
      ∃ progress log others final,
        build troubledEngine ⟨["main"], []⟩ .itanium (fun event log => log ++ [event]) []
          = (.ok progress, log) ∧
        progress.stats = troubledStats ∧
        build (listing troubledEngine [2, 3, 4]) ⟨["main"], []⟩ .itanium
          (fun event log => log ++ [event]) [] = (.ok others, final) ∧
        others.graph = progress.graph ∧
        others.stats = { troubledStats with functions := 3, errors := 0 } := by
  have hpure : troubledEngine.IsPure := fun symbol _ => ⟨.ok _, rfl⟩
  have htellable : troubledEngine.IsTellable .itanium := by
    refine ⟨fun address fault hfault => ?_, fun _ _ hfault => (nomatch hfault),
      fun _ _ hfault => (nomatch hfault), fun _ _ hfault => (nomatch hfault),
      fun symbol _ => Query.guards_pure _⟩
    simp only [troubledEngine] at hfault
    split at hfault
    · cases hfault
      rfl
    · cases hfault
  have hfunctions : troubledEngine.functions = .ok [1, 2, 3, 4] := rfl
  obtain ⟨answer, collected, progress, hanswers, hbuild, -, -, -, -, -, -, others, final, hlisted,
    hgraph, hstats⟩ := build_accounts hpure htellable hfunctions ⟨["main"], []⟩
      (fun event log => log ++ [event]) []
  have hcomputed : ((build troubledEngine ⟨["main"], []⟩ .itanium
      (fun event log => log ++ [event]) []).1.toOption.map Progress.stats) = some troubledStats := by
    decide +kernel
  rw [hbuild] at hcomputed
  have hprogress := Option.some.inj hcomputed
  have hsound : ([1, 2, 3, 4].filter fun address => !fails (answer address)) = [2, 3, 4] := by
    have hfails : ∀ address, fails (answer address) =
        fails ((outcome troubledEngine ⟨["main"], []⟩ .itanium address).runFrom []).1 := by
      intro address
      rw [hanswers.outcome, Query.runFrom_ofExcept]
    simp only [hfails]
    decide +kernel
  rw [hsound] at hlisted
  rw [hprogress] at hstats
  exact ⟨hpure, htellable, hfunctions, progress, _, others, final, hbuild, hprogress, hlisted, hgraph,
    hstats⟩

end Graph

end CallGraph
