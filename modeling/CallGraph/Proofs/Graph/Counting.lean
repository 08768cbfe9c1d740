import CallGraph.Proofs.Graph.Running
import Mathlib.Algebra.Ring.Nat

/-!
# What the counters say

The counters of a build are told by the answers for its functions alone. `Counts` says how, and that
every recorded function either has a record left or has been run over in a collision. All of it but
the graph is blind to the order of the answers, and so are the counters.
-/

namespace CallGraph

namespace Stats

def skipped (stats : Stats) : Skip → Nat
  | .notCode => stats.skippedNotCode
  | .noSymbol => stats.skippedNoSymbol
  | .qualifiedSymbol => stats.skippedQualifiedSymbol
  | .demangleFailed => stats.skippedDemangleFailed
  | .rejectedByFilter => stats.rejectedByFilter

theorem skipped_skip (stats : Stats) (given reason : Skip) :
    (stats.skip given).skipped reason =
      stats.skipped reason + if given = reason then 1 else 0 := by
  cases given <;> cases reason <;> rfl

theorem eq_of_counters_eq {stats other : Stats} (hfunctions : stats.functions = other.functions)
    (hrecorded : stats.recorded = other.recorded)
    (hskipped : ∀ reason, stats.skipped reason = other.skipped reason)
    (hdropped : stats.droppedCallers = other.droppedCallers) (herrors : stats.errors = other.errors)
    (hcollisions : stats.collisions = other.collisions) : stats = other := by
  have hnotCode := hskipped .notCode
  have hnoSymbol := hskipped .noSymbol
  have hqualified := hskipped .qualifiedSymbol
  have hdemangle := hskipped .demangleFailed
  have hrejected := hskipped .rejectedByFilter
  cases stats
  cases other
  simp only [skipped] at *
  simp [*]

end Stats

namespace Graph

def skips (reason : Skip) : Except Fault Outcome → Bool
  | .ok (.skipped given) => given = reason
  | _ => false

def droppedBy : Except Fault Outcome → Nat
  | .ok (.recorded _ dropped) => dropped
  | _ => 0

def fails : Except Fault Outcome → Bool
  | .error _ => true
  | .ok _ => false

/-- What one answer adds to the progress. The collision is made exactly where the record does not add
to the graph. -/
structure Adds (answer : Except Fault Outcome) (progress next : Progress) : Prop where
  graph : next.graph = (record? answer).toList.foldl set progress.graph
  functions : next.stats.functions = progress.stats.functions + 1
  recorded : next.stats.recorded = progress.stats.recorded + (record? answer).toList.length
  skipped : ∀ reason, next.stats.skipped reason =
    progress.stats.skipped reason + if skips reason answer then 1 else 0
  dropped : next.stats.droppedCallers = progress.stats.droppedCallers + droppedBy answer
  errors : next.stats.errors = progress.stats.errors + if fails answer then 1 else 0
  collisions : next.stats.collisions + next.graph.size =
    progress.stats.collisions + progress.graph.size + (record? answer).toList.length

theorem adds_advance (progress : Progress) (address : Address) (answer : Except Fault Outcome) :
    Adds answer progress (progress.enter.advance address answer).1 := by
  rcases answer with fault | ⟨record, dropped⟩ | given
  · exact ⟨rfl, rfl, rfl, fun reason => by cases reason <;> rfl, rfl, rfl, rfl⟩
  · rw [advance_recorded]
    refine ⟨rfl, rfl, rfl, fun reason => by cases reason <;> rfl, rfl, rfl, ?_⟩
    have hsize := size_replace progress.graph record
    simp only [Progress.enter, record?, Option.toList_some, List.length_singleton]
    omega
  · have hskipped := Stats.skipped_skip progress.enter.stats given
    have hbefore : ∀ reason, progress.enter.stats.skipped reason = progress.stats.skipped reason := by
      intro reason
      cases reason <;> rfl
    refine ⟨rfl, ?_, ?_, fun reason => ?_, ?_, ?_, ?_⟩
    · cases given <;> rfl
    · cases given <;> rfl
    · have hcounted := hskipped reason
      rw [hbefore] at hcounted
      simp only [skips, decide_eq_true_eq]
      exact hcounted
    · cases given <;> rfl
    · cases given <;> rfl
    · cases given <;> rfl

/-- The progress is what the answers make of an empty one. -/
structure Counts (answers : List (Except Fault Outcome)) (progress : Progress) : Prop where
  graph : progress.graph = ofRecords (answers.filterMap record?)
  functions : progress.stats.functions = answers.length
  recorded : progress.stats.recorded = (answers.filterMap record?).length
  skipped : ∀ reason, progress.stats.skipped reason = answers.countP (skips reason)
  dropped : progress.stats.droppedCallers = (answers.map droppedBy).sum
  errors : progress.stats.errors = answers.countP fails
  collisions : progress.stats.collisions + progress.graph.size = progress.stats.recorded

theorem counts_nil : Counts [] {} :=
  ⟨rfl, rfl, rfl, fun reason => by cases reason <;> rfl, rfl, rfl, rfl⟩

theorem Counts.concat {answers : List (Except Fault Outcome)} {answer : Except Fault Outcome}
    {progress next : Progress} (h : Counts answers progress) (hadds : Adds answer progress next) :
    Counts (answers ++ [answer]) next := by
  have hrecords : (answers ++ [answer]).filterMap record? =
      answers.filterMap record? ++ (record? answer).toList := by
    rw [List.filterMap_append, List.filterMap_cons, List.filterMap_nil]
    cases record? answer <;> rfl
  refine ⟨?_, ?_, ?_, fun reason => ?_, ?_, ?_, ?_⟩
  · rw [hadds.graph, h.graph, hrecords, ofRecords, ofRecords, List.foldl_append]
  · rw [hadds.functions, h.functions, List.length_append, List.length_singleton]
  · rw [hadds.recorded, h.recorded, hrecords, List.length_append]
  · rw [hadds.skipped, h.skipped, List.countP_append, List.countP_singleton]
  · rw [hadds.dropped, h.dropped, List.map_append, List.sum_append, List.map_singleton,
      List.sum_singleton]
  · rw [hadds.errors, h.errors, List.countP_append, List.countP_singleton]
  · rw [hadds.collisions, h.collisions, hadds.recorded]

theorem counts_progressOn (answer : Address → Except Fault Outcome) (addresses : List Address) :
    Counts (addresses.map answer) (progressOn answer addresses {}) := by
  induction addresses using List.reverseRecOn with
  | nil => exact counts_nil
  | append_singleton addresses address ih =>
    rw [List.map_append, List.map_singleton, progressOn, List.foldl_concat, ← progressOn]
    exact ih.concat (adds_advance _ address _)

/-- What a build comes to is counted by what came of each function in turn, whatever state it met. -/
theorem exists_counts_buildFrom {σ : Type} {engine : Engine σ} {filter : NameFilter} {abi : Abi}
    {tell : BuildEvent → σ → σ} {addresses : List Address} {earlier : List (Except Fault Outcome)}
    {progress last : Progress} {state final : σ} (hbefore : Counts earlier progress)
    (h : buildFrom engine filter abi tell addresses progress state = (.ok last, final)) :
    ∃ answers, List.Forall₂ (fun address answer => ∃ begun after,
        (outcome engine filter abi address).runFrom begun = (answer, after)) addresses answers ∧
      Counts (earlier ++ answers) last := by
  induction addresses generalizing earlier progress state with
  | nil =>
    rw [buildFrom, Prod.mk.injEq, Except.ok.injEq] at h
    exact ⟨[], .nil, by rwa [List.append_nil, ← h.1]⟩
  | cons address rest ih =>
    have hnext := (buildFrom_cons_eq_ok_iff.1 h).2
    rw [afterTurn, fst_takeIn] at hnext
    obtain ⟨answers, hanswers, hcounts⟩ := ih (hbefore.concat (adds_advance progress address _)) hnext
    rw [List.append_assoc] at hcounts
    exact ⟨_, .cons ⟨state, _, rfl⟩ hanswers, hcounts⟩

/-- Callers are dropped from those of recorded functions, and so no more in all than there are. -/
theorem sum_droppedBy_le {σ : Type} {engine : Engine σ} {filter : NameFilter} {abi : Abi}
    {addresses : List Address} {answers : List (Except Fault Outcome)} (size : Address → Nat)
    (hsize : ∀ address origins, engine.referencesTo address = .ok origins →
      origins.length ≤ size address)
    (h : List.Forall₂ (fun address answer => ∃ begun after,
      (outcome engine filter abi address).runFrom begun = (answer, after)) addresses answers) :
    (answers.map droppedBy).sum ≤ (addresses.map size).sum := by
  induction h with
  | nil => exact Nat.le_refl 0
  | @cons address answer _ _ hturn _ ih =>
    obtain ⟨begun, after, hturn⟩ := hturn
    have hdropped : droppedBy answer ≤ size address := by
      rcases answer with fault | ⟨record, dropped⟩ | reason
      · exact Nat.zero_le _
      · obtain ⟨recording⟩ := outcome_recorded hturn
        have hcollected := length_callerNames_le recording.callerNames
        have hreferences := hsize address _ recording.referencesTo
        have hamount := recording.dropped
        show dropped ≤ size address
        omega
      · exact Nat.zero_le _
    rw [List.map_cons, List.map_cons, List.sum_cons, List.sum_cons]
    omega

variable {answers others : List (Except Fault Outcome)} {progress other : Progress}

/-- No counter but that of the dropped callers goes beyond the number of functions. -/
theorem Counts.le_length (h : Counts answers progress) :
    progress.stats.recorded ≤ answers.length ∧
      (∀ reason, progress.stats.skipped reason ≤ answers.length) ∧
      progress.stats.errors ≤ answers.length ∧
      progress.stats.collisions + progress.graph.size ≤ answers.length := by
  have hrecorded : progress.stats.recorded ≤ answers.length :=
    h.recorded ▸ List.length_filterMap_le _ _
  refine ⟨hrecorded, fun reason => ?_, ?_, h.collisions.symm ▸ hrecorded⟩
  · exact h.skipped reason ▸ List.countP_le_length
  · exact h.errors ▸ List.countP_le_length

theorem Counts.mem_names_of_perm (h : Counts answers progress) (hother : Counts others other)
    (hperm : others.Perm answers) (name : String) :
    name ∈ other.graph.names ↔ name ∈ progress.graph.names := by
  rw [h.graph, hother.graph, names_ofRecords, names_ofRecords, List.mem_eraseDups,
    List.mem_eraseDups]
  exact ((hperm.filterMap record?).map CallRecord.name).mem_iff

/-- The same answers in another order lead to the same counters. Which of several records of a name
stays depends on the order, but not how many do. -/
theorem Counts.stats_eq_of_perm (h : Counts answers progress) (hother : Counts others other)
    (hperm : others.Perm answers) : other.stats = progress.stats := by
  have hrecords : (others.filterMap record?).Perm (answers.filterMap record?) :=
    hperm.filterMap record?
  have hrecorded : other.stats.recorded = progress.stats.recorded := by
    rw [h.recorded, hother.recorded, hrecords.length_eq]
  have hsize : other.graph.size = progress.graph.size := by
    rw [h.graph, hother.graph, size_ofRecords_of_perm hrecords]
  refine Stats.eq_of_counters_eq ?_ hrecorded ?_ ?_ ?_ ?_
  · rw [h.functions, hother.functions, hperm.length_eq]
  · intro reason
    rw [h.skipped, hother.skipped, hperm.countP_eq]
  · rw [h.dropped, hother.dropped, (hperm.map droppedBy).sum_nat]
  · rw [h.errors, hother.errors, hperm.countP_eq]
  · have hcollisions := h.collisions
    have hcollisionsOther := hother.collisions
    omega

theorem Counts.records_eq (h : Counts answers progress) (hnone : progress.stats.collisions = 0) :
    progress.graph.records = answers.filterMap record? := by
  have hcollisions := h.collisions
  rw [hnone, Nat.zero_add, h.recorded, h.graph] at hcollisions
  rw [h.graph, records_ofRecords_of_size hcollisions]

end Graph

end CallGraph
