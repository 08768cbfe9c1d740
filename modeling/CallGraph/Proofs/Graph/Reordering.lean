import CallGraph.Document.Render
import CallGraph.Proofs.Graph.Comparing
import CallGraph.Proofs.Graph.Counting

/-!
# The order in which a snapshot lists things

An exporter may list functions and references in any order. To which function an address belongs
does not depend on it, and the callers of a function are sorted, so that every function comes to the
same in whatever order a snapshot lists it and the rest. What depends on the order of the functions
is the order of the records, and which of several functions of one name is recorded.
-/

namespace CallGraph

namespace Snapshot

variable {snapshot : Snapshot} {functions : List FunctionEntry} {references : List Reference}

/-- The snapshot with other functions and references. -/
def relist (snapshot : Snapshot) (functions : List FunctionEntry) (references : List Reference) :
    Snapshot :=
  { snapshot with functions, references }

theorem WellFormed.relist (hwf : snapshot.WellFormed) (h : functions.Perm snapshot.functions) :
    (snapshot.relist functions references).WellFormed where
  nodup_starts := (h.map FunctionEntry.start).nodup_iff.2 hwf.nodup_starts
  start_lt_stop entry hentry := hwf.start_lt_stop entry (h.mem_iff.1 hentry)

theorem isOwner_relist_iff (h : functions.Perm snapshot.functions) {address : Address}
    {entry : FunctionEntry} :
    (snapshot.relist functions references).IsOwner address entry ↔
      snapshot.IsOwner address entry := by
  constructor
  · rintro ⟨hmem, hcovers, hlatest⟩
    exact ⟨h.mem_iff.1 hmem, hcovers, fun other hother => hlatest other (h.mem_iff.2 hother)⟩
  · rintro ⟨hmem, hcovers, hlatest⟩
    exact ⟨h.mem_iff.2 hmem, hcovers, fun other hother => hlatest other (h.mem_iff.1 hother)⟩

/-- As starts are distinct, there is one owner of an address, wherever it is listed. -/
theorem owner?_relist (hwf : snapshot.WellFormed) (h : functions.Perm snapshot.functions)
    (references : List Reference) (address : Address) :
    (snapshot.relist functions references).owner? address = snapshot.owner? address := by
  ext entry
  rw [owner?_eq_some_iff (hwf.relist h), owner?_eq_some_iff hwf, isOwner_relist_iff h]

end Snapshot

namespace SnapshotBuild

variable {σ : Type} {build : SnapshotBuild} {functions : List FunctionEntry}
  {references : List Reference}

/-- A build from the same snapshot with other functions and references. -/
def relist (build : SnapshotBuild) (functions : List FunctionEntry)
    (references : List Reference) : SnapshotBuild :=
  { build with snapshot := build.snapshot.relist functions references }

theorem callerAt?_relist (hwf : build.snapshot.WellFormed)
    (h : functions.Perm build.snapshot.functions) (origin : Address) :
    (build.relist functions references).callerAt? origin = build.callerAt? origin := by
  have howner := Snapshot.owner?_relist hwf h references origin
  simp only [callerAt?, relist, howner]
  rfl

theorem collectedAt_relist (hwf : build.snapshot.WellFormed)
    (hfunctions : functions.Perm build.snapshot.functions)
    (hreferences : references.Perm build.snapshot.references) (target : Address) :
    ((build.relist functions references).collectedAt target).Perm (build.collectedAt target) := by
  have hcaller : (build.relist functions references).callerAt? = build.callerAt? := by
    funext origin
    exact callerAt?_relist hwf hfunctions origin
  have horigins : ((build.relist functions references).snapshot.index.origins target).Perm
      (build.snapshot.index.origins target) := (hreferences.filter _).map _
  rw [collectedAt, hcaller]
  exact horigins.filterMap _

theorem answer_relist (hwf : build.snapshot.WellFormed)
    (hfunctions : functions.Perm build.snapshot.functions)
    (hreferences : references.Perm build.snapshot.references) (state : σ) {entry : FunctionEntry}
    (hentry : entry ∈ build.snapshot.functions) :
    (build.relist functions references).answer state entry.start =
      build.answer state entry.start :=
  answer_onto hwf (hwf.relist hfunctions) rfl hentry (hfunctions.mem_iff.2 hentry) rfl rfl
    (collectedAt_relist hwf hfunctions hreferences entry.start) state

theorem map_answer_relist (hwf : build.snapshot.WellFormed)
    (hfunctions : functions.Perm build.snapshot.functions)
    (hreferences : references.Perm build.snapshot.references) (state : σ) :
    (functions.map FunctionEntry.start).map
        ((build.relist functions references).answer state) =
      (functions.map FunctionEntry.start).map (build.answer state) := by
  rw [List.map_map, List.map_map]
  refine List.map_congr_left fun entry hentry => ?_
  exact answer_relist hwf hfunctions hreferences state (hfunctions.mem_iff.1 hentry)

theorem filterMap_record?_answer (hwf : build.snapshot.WellFormed)
    (hfunctions : functions.Perm build.snapshot.functions) (state : σ) :
    ((functions.map FunctionEntry.start).map (build.answer state)).filterMap Graph.record? =
      functions.filterMap build.recordOf? := by
  rw [List.map_map, List.filterMap_map]
  refine List.filterMap_congr fun entry hentry => ?_
  obtain ⟨_, -, -, hrecord⟩ := exists_answer_eq_ok hwf (hfunctions.mem_iff.1 hentry) state
  exact hrecord

/-- The order of the references makes no difference at all. That of the functions makes none to the
names and the counters; where no two functions share a name, it makes none to the records either,
which follow the functions. -/
theorem run_relisted {value : Option Json} (h : Snapshot.ofJson value = .ok build.snapshot)
    (tell : BuildEvent → σ → σ) (state : σ) :
    ∃ progress final, build.run tell state = (.ok progress, final) ∧
      (∀ references, references.Perm build.snapshot.references →
        ∃ other last, (build.relist build.snapshot.functions references).run tell state
            = (.ok other, last) ∧
          Document.render other.graph = Document.render progress.graph ∧
          other.stats = progress.stats) ∧
      ∀ functions, functions.Perm build.snapshot.functions →
        ∃ other last, (build.relist functions build.snapshot.references).run tell state
            = (.ok other, last) ∧
          (∀ name, name ∈ other.graph.names ↔ name ∈ progress.graph.names) ∧
          other.stats = progress.stats ∧
          (progress.stats.collisions = 0 →
            other.graph.records.Perm progress.graph.records ∧
            progress.graph.records = build.snapshot.functions.filterMap build.recordOf? ∧
            other.graph.records = functions.filterMap build.recordOf?) := by
  have hwf := Snapshot.wellFormed_of_ofJson h
  obtain ⟨final, hrun⟩ := run_eq_progressOn hwf tell state
  have hcounts := Graph.counts_progressOn (build.answer state)
    (build.snapshot.functions.map FunctionEntry.start)
  refine ⟨_, final, hrun, ?_, ?_⟩
  · intro references hreferences
    obtain ⟨last, hlast⟩ := run_onto hwf (hwf.relist (.refl _))
      (map_answer_relist hwf (.refl _) hreferences state) hrun
    exact ⟨_, last, hlast, rfl, rfl⟩
  · intro functions hfunctions
    have hrelisted : (build.relist functions build.snapshot.references).snapshot.WellFormed :=
      hwf.relist hfunctions
    obtain ⟨last, hlast⟩ := run_eq_progressOn hrelisted tell state
    have hother := Graph.counts_progressOn
      ((build.relist functions build.snapshot.references).answer state)
      (functions.map FunctionEntry.start)
    rw [map_answer_relist hwf hfunctions (.refl _) state] at hother
    have hperm : ((functions.map FunctionEntry.start).map (build.answer state)).Perm
        ((build.snapshot.functions.map FunctionEntry.start).map (build.answer state)) :=
      (hfunctions.map _).map _
    have hstats := hcounts.stats_eq_of_perm hother hperm
    -- Each count of collisions tells whether all records of its own build have stayed.
    refine ⟨_, last, hlast, hcounts.mem_names_of_perm hother hperm, hstats, fun hnone => ?_⟩
    have hrecords := hcounts.records_eq hnone
    have hrecordsOther := hother.records_eq (hstats ▸ hnone)
    rw [filterMap_record?_answer hwf (.refl _)] at hrecords
    rw [filterMap_record?_answer hwf hfunctions] at hrecordsOther
    refine ⟨?_, hrecords, hrecordsOther⟩
    rw [hrecords]
    exact hrecordsOther ▸ hfunctions.filterMap _

theorem run_relisted_nested :
    Snapshot.ofJson (some nestedValue) = .ok nested.snapshot ∧
      ∃ progress final, nested.run (fun _ state => state) () = (.ok progress, final) ∧
        (∃ other last, (nested.relist nested.snapshot.functions
            nested.snapshot.references.reverse).run (fun _ state => state) () = (.ok other, last) ∧
          Document.render other.graph = Document.render progress.graph ∧
          other.stats = progress.stats) ∧
        ∃ other last, (nested.relist nested.snapshot.functions.reverse
            nested.snapshot.references).run (fun _ state => state) () = (.ok other, last) ∧
          (∀ name, name ∈ other.graph.names ↔ name ∈ progress.graph.names) ∧
          other.stats = progress.stats := by
  have haccepted : Snapshot.ofJson (some nestedValue) = .ok nested.snapshot := by decide +kernel
  obtain ⟨progress, final, hrun, hreferences, hfunctions⟩ :=
    run_relisted haccepted (fun _ state => state) ()
  obtain ⟨other, last, hother, hnames, hstats, -⟩ :=
    hfunctions _ (List.reverse_perm nested.snapshot.functions)
  exact ⟨haccepted, progress, final, hrun,
    hreferences _ (List.reverse_perm nested.snapshot.references), other, last, hother, hnames,
    hstats⟩

end SnapshotBuild

end CallGraph
