import CallGraph.Document.Render
import CallGraph.Proofs.Graph.Comparing
import CallGraph.Proofs.Snapshot.Writing

/-!
# Moving a binary to another base

An exporter may count addresses from any base. Moving all addresses of a snapshot by the same
distance moves the function to which an address belongs along with it, and so every query has its
old answer at the new place. As a graph holds names only, it is the same graph.
-/

namespace CallGraph

variable {distance : Int}

namespace FunctionEntry

def move (distance : Int) (entry : FunctionEntry) : FunctionEntry :=
  { entry with
    start := entry.start + distance
    stop? := entry.stop?.map fun stop => stop + distance }

theorem stop_move (entry : FunctionEntry) : (entry.move distance).stop = entry.stop + distance := by
  cases hstop : entry.stop? with
  | none =>
    simp only [stop, move, hstop, Option.map_none, Option.getD_none]
    exact Int.add_right_comm _ _ _
  | some stop => simp only [FunctionEntry.stop, move, hstop, Option.map_some, Option.getD_some]

theorem covers_move (entry : FunctionEntry) (address : Address) :
    (entry.move distance).covers (address + distance) = entry.covers address := by
  rw [covers, covers, stop_move]
  simp only [move, Int.add_le_add_iff_right, Int.add_lt_add_iff_right]

theorem bounds_move (entry : FunctionEntry) :
    (entry.move distance).bounds = entry.bounds.map fun address => address + distance := by
  simp only [bounds, move, List.map_cons]
  cases entry.stop? <;> rfl

end FunctionEntry

def Reference.move (distance : Int) (reference : Reference) : Reference :=
  ⟨reference.source + distance, reference.target + distance⟩

namespace Snapshot

variable {snapshot : Snapshot}

/-- The snapshot of the binary at another base. -/
def move (distance : Int) (snapshot : Snapshot) : Snapshot :=
  { snapshot with
    functions := snapshot.functions.map (FunctionEntry.move distance)
    references := snapshot.references.map (Reference.move distance) }

theorem addresses_move (snapshot : Snapshot) :
    (snapshot.move distance).addresses =
      snapshot.addresses.map fun address => address + distance := by
  simp only [addresses, move, List.map_append, List.map_flatMap, List.flatMap_map,
    FunctionEntry.bounds_move]
  rfl

theorem WellFormed.move (hwf : snapshot.WellFormed) (distance : Int) :
    (snapshot.move distance).WellFormed where
  nodup_starts := by
    have hstarts := hwf.nodup_starts.map (add_left_injective distance)
    simp only [Snapshot.move, List.map_map] at hstarts ⊢
    exact hstarts
  start_lt_stop := by
    simp only [Snapshot.move, List.forall_mem_map]
    intro entry hentry
    rw [FunctionEntry.stop_move]
    exact Int.add_lt_add_right (hwf.start_lt_stop entry hentry) distance

theorem owner?_move (snapshot : Snapshot) (distance : Int) (address : Address) :
    (snapshot.move distance).owner? (address + distance) =
      (snapshot.owner? address).map (FunctionEntry.move distance) := by
  have hlatest : ∀ entry : FunctionEntry,
      ((snapshot.move distance).functions.all fun other =>
        !other.covers (address + distance) || other.start ≤ (entry.move distance).start) =
      snapshot.functions.all fun other => !other.covers address || other.start ≤ entry.start := by
    intro entry
    simp only [move, List.all_map, Function.comp_def, FunctionEntry.covers_move]
    simp only [FunctionEntry.move, Int.add_le_add_iff_right]
  unfold owner?
  rw [move, List.find?_map]
  congr 2
  funext entry
  show ((entry.move distance).covers (address + distance) && _) = _
  rw [FunctionEntry.covers_move]
  exact congrArg _ (hlatest entry)

theorem origins_move (snapshot : Snapshot) (target : Address) :
    (snapshot.move distance).index.origins (target + distance) =
      (snapshot.index.origins target).map fun origin => origin + distance := by
  have htarget : ((fun reference : Reference => reference.target == target + distance) ∘
      Reference.move distance) = fun reference => reference.target == target := by
    funext reference
    simp [Reference.move]
  simp only [SnapshotIndex.origins, index, move, List.filter_map, List.map_map, htarget]
  rfl

theorem ofJson_toJson_move {value : Option Json} (h : ofJson value = .ok snapshot)
    (hexact : ∀ address ∈ snapshot.addresses, (address + distance : Address).IsExact) :
    ofJson (some (snapshot.move distance).toJson) = .ok (snapshot.move distance) := by
  have hkeys : snapshot.HasKeptKeys := hasKeptKeys_of_ofJson h
  refine ofJson_toJson ((wellFormed_of_ofJson h).move distance) ?_ hkeys
  rw [addresses_move, List.forall_mem_map]
  exact hexact

end Snapshot

namespace SnapshotBuild

variable {σ : Type} {build : SnapshotBuild}

/-- The same build of the binary at another base. -/
def move (distance : Int) (build : SnapshotBuild) : SnapshotBuild :=
  { build with snapshot := build.snapshot.move distance }

theorem callerAt?_move (build : SnapshotBuild) (distance : Int) (origin : Address) :
    (build.move distance).callerAt? (origin + distance) = build.callerAt? origin := by
  have howner := Snapshot.owner?_move build.snapshot distance origin
  simp only [callerAt?, move, howner]
  cases build.snapshot.owner? origin <;> rfl

theorem collectedAt_move (build : SnapshotBuild) (distance : Int) (target : Address) :
    (build.move distance).collectedAt (target + distance) = build.collectedAt target := by
  have horigins : (build.move distance).snapshot.index.origins (target + distance) =
      (build.snapshot.index.origins target).map fun origin => origin + distance :=
    Snapshot.origins_move build.snapshot target
  rw [collectedAt, collectedAt, horigins, List.filterMap_map]
  congr 1
  funext origin
  exact callerAt?_move build distance origin

theorem answer_move (hwf : build.snapshot.WellFormed) (distance : Int) (state : σ)
    {entry : FunctionEntry} (hentry : entry ∈ build.snapshot.functions) :
    (build.move distance).answer state (entry.move distance).start =
      build.answer state entry.start := by
  have hplace : entry.move distance ∈ (build.snapshot.move distance).functions :=
    List.mem_map_of_mem hentry
  have hcallers := List.Perm.of_eq (collectedAt_move build distance entry.start)
  exact answer_onto hwf (hwf.move distance) rfl hentry hplace rfl rfl hcallers state

/-- A binary has the same graph at every base at which its addresses are exact. -/
theorem run_moved {value : Option Json} (h : Snapshot.ofJson value = .ok build.snapshot)
    (distance : Int)
    (hexact : ∀ address ∈ build.snapshot.addresses,
      0 ≤ address + distance ∧ address + distance ≤ Number.maxSafe)
    (tell : BuildEvent → σ → σ) (state : σ) :
    Snapshot.ofJson (some (build.snapshot.move distance).toJson) =
        .ok (build.move distance).snapshot ∧
      ∃ progress final other last, build.run tell state = (.ok progress, final) ∧
        (build.move distance).run tell state = (.ok other, last) ∧
        Document.render other.graph = Document.render progress.graph ∧
        other.stats = progress.stats := by
  have hwf := Snapshot.wellFormed_of_ofJson h
  obtain ⟨final, hrun⟩ := run_eq_progressOn hwf tell state
  have hanswers : ((build.snapshot.move distance).functions.map FunctionEntry.start).map
      ((build.move distance).answer state) =
        (build.snapshot.functions.map FunctionEntry.start).map (build.answer state) := by
    rw [Snapshot.move, List.map_map, List.map_map, List.map_map]
    exact List.map_congr_left fun entry hentry => answer_move hwf distance state hentry
  obtain ⟨last, hother⟩ := run_onto hwf (hwf.move distance) hanswers hrun
  exact ⟨Snapshot.ofJson_toJson_move h hexact, _, final, _, last, hrun, hother, rfl, rfl⟩

theorem run_moved_nested :
    Snapshot.ofJson (some nestedValue) = .ok nested.snapshot ∧
      (∀ address ∈ nested.snapshot.addresses,
        0 ≤ address + -16 ∧ address + -16 ≤ Number.maxSafe) ∧
      Snapshot.ofJson (some (nested.snapshot.move (-16)).toJson) = .ok (nested.move (-16)).snapshot ∧
      ∃ progress final other last, nested.run (fun _ state => state) () = (.ok progress, final) ∧
        (nested.move (-16)).run (fun _ state => state) () = (.ok other, last) ∧
        Document.render other.graph = Document.render progress.graph ∧
        other.stats = progress.stats := by
  have haccepted : Snapshot.ofJson (some nestedValue) = .ok nested.snapshot := by decide +kernel
  have hexact : ∀ address ∈ nested.snapshot.addresses,
      0 ≤ address + -16 ∧ address + -16 ≤ Number.maxSafe := by decide +kernel
  exact ⟨haccepted, hexact, run_moved haccepted (-16) hexact (fun _ state => state) ()⟩

end SnapshotBuild

end CallGraph
