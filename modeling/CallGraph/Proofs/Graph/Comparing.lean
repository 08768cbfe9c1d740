import CallGraph.Proofs.Graph.OfSnapshot

/-!
# The same build from another snapshot

Two snapshots with the same tables are compared function by function. A function comes to the same
in both if it has the same symbol and the same callers, in whatever order; and if all functions do,
the builds make the same graph and the same counts.
-/

namespace CallGraph.SnapshotBuild

variable {σ : Type} {build : SnapshotBuild} {snapshot : Snapshot}

/-- The build with its snapshot exchanged. -/
def onto (build : SnapshotBuild) (snapshot : Snapshot) : SnapshotBuild :=
  { build with snapshot }

theorem answer_onto (hwf : build.snapshot.WellFormed) (hother : snapshot.WellFormed)
    (htables : snapshot.tables = build.snapshot.tables) {entry other : FunctionEntry}
    (hentry : entry ∈ build.snapshot.functions) (hplace : other ∈ snapshot.functions)
    (hcode : other.code = entry.code) (hname : other.name? = entry.name?)
    (hcallers : ((build.onto snapshot).collectedAt other.start).Perm
      (build.collectedAt entry.start)) (state : σ) :
    (build.onto snapshot).answer state other.start = build.answer state entry.start := by
  have hwfOther : (build.onto snapshot).snapshot.WellFormed := hother
  have hplaceOther : other ∈ (build.onto snapshot).snapshot.functions := hplace
  have houtcome : Graph.outcome ((build.onto snapshot).engine σ) build.filter build.abi
      other.start = Graph.outcome (build.engine σ) build.filter build.abi entry.start := by
    apply Graph.outcome_congr ?_ ?_ ?_ (callers_engine_eq hwf entry.start)
      (callers_engine_eq hwfOther other.start) hcallers
    · rw [isCode_engine hwfOther hplaceOther, isCode_engine hwf hentry, hcode]
    · rw [rawSymbol_engine hwfOther hplaceOther, rawSymbol_engine hwf hentry, hname]
    · intro symbol
      simp only [engine, onto, SnapshotIndex.engine, Snapshot.index, Snapshot.tableEntry?,
        Snapshot.table?, htables]
  unfold answer
  exact congrArg (fun query => (query.runFrom state).1) houtcome

theorem run_onto (hwf : build.snapshot.WellFormed) (hother : snapshot.WellFormed)
    {tell : BuildEvent → σ → σ} {state final : σ} {progress : Graph.Progress}
    (hanswers : (snapshot.functions.map FunctionEntry.start).map
        ((build.onto snapshot).answer state) =
      (build.snapshot.functions.map FunctionEntry.start).map (build.answer state))
    (h : build.run tell state = (.ok progress, final)) :
    ∃ last, (build.onto snapshot).run tell state = (.ok progress, last) := by
  have hwfOther : (build.onto snapshot).snapshot.WellFormed := hother
  obtain ⟨_, hrun⟩ := run_eq_progressOn hwf tell state
  obtain ⟨last, hlast⟩ := run_eq_progressOn hwfOther tell state
  obtain rfl := Except.ok.inj (Prod.mk.inj (h.symm.trans hrun)).1
  have hprogress := Graph.progressOn_congr hanswers {}
  exact ⟨last, hprogress ▸ hlast⟩

end CallGraph.SnapshotBuild
