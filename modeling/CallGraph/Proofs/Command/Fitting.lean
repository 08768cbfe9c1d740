import CallGraph.Proofs.Command.ToolRuns
import CallGraph.Proofs.Config.Applying
import CallGraph.Proofs.Graph.Counting

/-!
# What fits a text

The document of a dump that has succeeded holds counters, two paths and words. Counters are no greater
than the numbers of functions and references, and a path that could be asked for is short, so that this
document can be printed. So can the report of an answer that can not be printed itself. Whether what is
asked of a written document can be answered depends on the length of that document.
-/

namespace CallGraph

open Schema

/-! ### Documents -/

/-- The room that members take in a document. -/
def Json.Members.room (members : Json.Members) : Nat :=
  (members.map fun member => 6 + Json.quotedSize member.1 + member.2.prettySize 2).sum

namespace Session

open Json.Members (room)

variable {document : Json.Members} {environment : Environment} {command : String}

theorem isPrintable_of_room_le (h : room document + 3 ≤ Text.maxUnits) :
    isPrintable document = true := by
  have hsize := (Json.prettySize_object_bounds 0 document).2
  have hroom : (document.map fun member =>
      0 + 6 + Json.quotedSize member.1 + member.2.prettySize (0 + 2)).sum = room document := by
    simp only [room, Nat.zero_add]
  rw [isPrintable, decide_eq_true_eq]
  omega

theorem room_nil_le : room [] ≤ 0 :=
  Nat.le_refl 0

/-- Members with short keys take little more room than their values. -/
theorem room_cons_le {key : String} {value : Json} {size rest : Nat} (hkey : key.length ≤ 32)
    (hvalue : value.prettySize 2 ≤ size) (h : room document ≤ rest) :
    room ((key, value) :: document) ≤ 200 + size + rest := by
  have hquoted := Json.quotedSize_le key
  have hsum : room ((key, value) :: document) =
      6 + Json.quotedSize key + value.prettySize 2 + room document := List.sum_cons
  omega

theorem prettySize_string_le {text : String} {bound : Nat} (h : text.length ≤ bound) :
    (Json.string text).prettySize 2 ≤ 2 + 6 * bound := by
  have hquoted := Json.quotedSize_le text
  show Json.quotedSize text ≤ _
  omega

theorem prettySize_nat_le {n : Nat} (h : n ≤ Number.maxSafe) (margin : Nat) :
    (Json.nat n).prettySize margin ≤ 16 :=
  Json.length_numberText_ofNat_le h

/-- What every report sets. -/
def stamps (environment : Environment) (command : String) : Json.Members :=
  [("command", .string command), ("timestamp", .string environment.stamp), ("duration_ms", .nat 0)]

theorem perm_stamped_success (environment : Environment) (command : String) {data : Json.Members}
    (hkeys : (["ok"] ++ data.map Prod.fst ++ ["command", "timestamp", "duration_ms"]).Nodup) :
    (stamped environment command (Answer.success data)).Perm
      ([("ok", .bool true)] ++ data ++ stamps environment command) := by
  have hanswer : (Answer.success data).Perm ([("ok", .bool true)] ++ data) :=
    Json.Members.perm_merge (List.Nodup.of_append_left hkeys)
  have hfirst : (Json.Members.merge [] (Answer.success data)).Perm ([("ok", .bool true)] ++ data) :=
    (Json.Members.perm_ofList (Answer.nodup_success data)).trans hanswer
  have hnodup : ((Json.Members.merge [] (Answer.success data)).map Prod.fst ++
      (stamps environment command).map Prod.fst).Nodup := by
    refine ((hfirst.map Prod.fst).append_right _).nodup_iff.2 ?_
    rwa [List.map_append]
  exact (Json.Members.perm_merge hnodup).trans (hfirst.append_right _)

/-- A success is printed unless what it tells is too long. -/
theorem isPrintable_success {data : Json.Members} (hcommand : command.length ≤ 32)
    (hkeys : (["ok"] ++ data.map Prod.fst ++ ["command", "timestamp", "duration_ms"]).Nodup)
    (h : room data + 2000 ≤ Text.maxUnits) :
    isPrintable (stamped environment command (Answer.success data)) = true := by
  have hstamps : room (stamps environment command) ≤ 1200 :=
    (room_cons_le (by decide) (prettySize_string_le hcommand)
      (room_cons_le (by decide) (prettySize_string_le environment.stamp_length_le)
        (room_cons_le (by decide) (prettySize_nat_le (Nat.zero_le _) 2) room_nil_le))).trans (by decide)
  have hok : room [("ok", .bool true)] ≤ 300 :=
    (room_cons_le (by decide) (Nat.le_refl 4) room_nil_le).trans (by decide)
  have hsum : room (stamped environment command (Answer.success data)) =
      room [("ok", .bool true)] + room data + room (stamps environment command) := by
    have hperm := (perm_stamped_success environment command hkeys).map fun member =>
      6 + Json.quotedSize member.1 + member.2.prettySize 2
    rw [room, hperm.sum_eq, List.map_append, List.map_append, List.sum_append, List.sum_append]
    rfl
  exact isPrintable_of_room_le (by omega)

theorem isPrintable_internalError (environment : Environment) (hcommand : command.length ≤ 32) :
    isPrintable (internalError environment command .tooLong) = true := by
  have hword : ∀ {text : String}, text.length ≤ 60 → (Json.string text).prettySize 2 ≤ 362 :=
    prettySize_string_le
  have hroom : room (internalError environment command .tooLong) ≤ 5000 :=
    (room_cons_le (by decide) (Nat.le_refl 5) (room_cons_le (by decide) (hword (by decide))
      (room_cons_le (by decide) (hword (by decide)) (room_cons_le (by decide) (prettySize_string_le hcommand)
        (room_cons_le (by decide) (prettySize_string_le environment.stamp_length_le)
          (room_cons_le (by decide) (prettySize_nat_le (Nat.zero_le _) 2)
            (room_cons_le (by decide) (hword (by decide)) room_nil_le))))))).trans (by decide)
  exact isPrintable_of_room_le ((Nat.add_le_add_right hroom 3).trans (by decide))

end Session

/-- No counter is greater than the bound. -/
structure Stats.IsWithin (stats : Stats) (bound : Nat) : Prop where
  functions : stats.functions ≤ bound
  recorded : stats.recorded ≤ bound
  skipped : ∀ reason, stats.skipped reason ≤ bound
  dropped : stats.droppedCallers ≤ bound
  errors : stats.errors ≤ bound
  collisions : stats.collisions ≤ bound

/-- Counters without fractions or gaps take little room. -/
theorem Stats.IsWithin.prettySize_toJson_le {stats : Stats} {bound : Nat} (h : stats.IsWithin bound)
    (hbound : bound ≤ Number.maxSafe) : stats.toJson.prettySize 2 ≤ 25000 := by
  have hsize : ∀ {n}, n ≤ bound → (Json.nat n).prettySize 4 ≤ 16 :=
    fun hn => Session.prettySize_nat_le (hn.trans hbound) 4
  have hten : 2 + 2 + 10 * (2 + 200 + 16) ≤ 25000 := by decide
  refine (Json.prettySize_object_le 16 ?_).trans hten
  simp only [List.forall_mem_cons, List.not_mem_nil, false_implies, implies_true, and_true]
  exact ⟨⟨by decide, hsize h.functions⟩, ⟨by decide, hsize h.recorded⟩,
    ⟨by decide, hsize (h.skipped .notCode)⟩, ⟨by decide, hsize (h.skipped .noSymbol)⟩,
    ⟨by decide, hsize (h.skipped .qualifiedSymbol)⟩, ⟨by decide, hsize (h.skipped .demangleFailed)⟩,
    ⟨by decide, hsize (h.skipped .rejectedByFilter)⟩, ⟨by decide, hsize h.dropped⟩,
    ⟨by decide, hsize h.errors⟩, ⟨by decide, hsize h.collisions⟩⟩

/-- A reference leads to one address. -/
theorem SnapshotIndex.sum_length_origins_le (index : SnapshotIndex) {addresses : List Address}
    (h : addresses.Nodup) : (addresses.map fun address => (index.origins address).length).sum ≤
      index.snapshot.references.length := by
  simp only [origins, List.length_map]
  induction index.snapshot.references with
  | nil => simp
  | cons reference rest ih =>
    have hone : addresses.count reference.target ≤ 1 := List.nodup_iff_count_le_one.1 h _
    have hsplit : ∀ address : Address,
        ((reference :: rest).filter fun reference => reference.target == address).length =
          (if address = reference.target then 1 else 0) +
            (rest.filter fun reference => reference.target == address).length := by
      intro address
      by_cases htarget : reference.target = address
      · simp [htarget, Nat.add_comm]
      · simp [htarget, Ne.symm htarget]
    simp only [hsplit, List.sum_map_add, List.length_cons]
    have hcount : (addresses.map fun address => if address = reference.target then 1 else 0).sum =
        addresses.count reference.target := by
      rw [List.sum_map_ite, List.count_eq_countP, List.countP_eq_length_filter]
      simp [beq_eq_decide]
    omega

/-! ### Conventions -/

theorem ConfigFile.abi_mem_choices {members : Json.Members} {abi? : Option Abi}
    (h : Gives "abi" IsAbi members abi?) : ∀ abi ∈ abi?, abi.name ∈ Abi.choices := by
  intro abi habi
  obtain ⟨_, -, hknown⟩ := h.exists_of_mem habi
  exact hknown

theorem DumpInput.abi_mem_choices {arguments : Option Json} {input : DumpInput}
    (h : (check arguments).toExcept = .ok input) : ∀ abi ∈ input.abi?, abi.name ∈ Abi.choices := by
  rw [Checked.toExcept_eq_ok_iff, check, Check.accepts_object_iff] at h
  obtain ⟨members, -, h⟩ := h
  simp only [Checked.accepts_seq_iff, Checked.accepts_map_iff] at h
  obtain ⟨_, _, ⟨_, _, ⟨_, _, ⟨_, _, ⟨_, -, rfl⟩, -, rfl⟩, habi, rfl⟩, -, rfl⟩, -, rfl⟩ := h
  have hgives :=
    (Check.accepts_field_optional_iff fun _ _ => ConfigFile.accepts_checkAbi_some_iff).1 habi
  exact ConfigFile.abi_mem_choices hgives

theorem Config.abi_mem_choices_of_load {files : FileSystem} {directory : Path}
    {named : Option String} {config : Config} (h : load files directory named = .ok config) :
    config.abi.name ∈ Abi.choices := by
  have hdefault : default.abi.name ∈ Abi.choices := by decide
  have hfile : ∀ {path}, loadFile files path = .ok config → config.abi.name ∈ Abi.choices := by
    intro path hload
    cases hread : files.load .config ConfigFile.ofJson path with
    | error failure =>
      rw [loadFile, hread] at hload
      cases hload
    | ok file =>
      rw [loadFile, hread] at hload
      obtain ⟨_, value, -, -, hvalue⟩ := FileSystem.load_eq_ok_iff.1 hread
      obtain ⟨members, -, hmembers⟩ := ConfigFile.ofJson_eq_ok_iff.1 hvalue
      rw [← Except.ok.inj hload]
      show (file.abi?.getD default.abi).name ∈ Abi.choices
      cases hgiven : file.abi? with
      | none => exact hdefault
      | some abi => exact ConfigFile.abi_mem_choices hmembers.abi abi hgiven
  unfold load at h
  dsimp only at h
  split at h
  · split at h
    · exact hfile h
    · cases h
  · split at h
    · exact hfile h
    · rw [← Except.ok.inj h]
      exact hdefault

namespace DumpRun

variable {environment : Environment} {arguments : Option Json} {files : FileSystem}
  {report : Report} (run : DumpRun environment arguments files report)

theorem exists_counts : ∃ answers, List.Forall₂ (fun address answer => ∃ begun after,
      (Graph.outcome run.engine run.config.filter run.config.abi address).runFrom begun =
        (answer, after)) run.addresses answers ∧ Graph.Counts answers run.progress :=
  Graph.exists_counts_buildFrom Graph.counts_nil run.buildFrom_eq_ok

theorem isWithin_stats :
    run.progress.stats.IsWithin Text.maxUnits ∧ run.graph.size ≤ Text.maxUnits := by
  obtain ⟨answers, hanswers, hcounts⟩ := run.exists_counts
  obtain ⟨hfunctions, hreferences⟩ := run.length_le_maxUnits
  obtain ⟨hrecorded, hskipped, herrors, hcollisions⟩ := hcounts.le_length
  have hlength : answers.length ≤ Text.maxUnits := by
    rw [← hanswers.length_eq, addresses, List.length_map]
    exact hfunctions
  have hdropped : run.progress.stats.droppedCallers ≤ Text.maxUnits := by
    have hsum := Graph.sum_droppedBy_le
      (fun address => (run.snapshot.index.origins address).length)
      (fun address origins horigins => by
        rw [referencesTo_eq] at horigins
        exact Nat.le_of_eq (congrArg List.length (Except.ok.inj horigins)).symm) hanswers
    have hnodup : run.addresses.Nodup := (Dump.wellFormed_of_load run.loaded).nodup_starts
    rw [hcounts.dropped]
    exact hsum.trans ((SnapshotIndex.sum_length_origins_le _ hnodup).trans hreferences)
  refine ⟨⟨hcounts.functions ▸ hlength, hrecorded.trans hlength,
    fun reason => (hskipped reason).trans hlength, hdropped, herrors.trans hlength, ?_⟩, ?_⟩
  · omega
  · show run.progress.graph.size ≤ Text.maxUnits
    omega

/-- The convention is one of those that users can choose. -/
theorem abi_mem_choices : run.config.abi.name ∈ Abi.choices := by
  obtain ⟨base, hbase, hconfig⟩ := run.exists_config
  rw [hconfig]
  show (run.input.abi?.getD base.abi).name ∈ Abi.choices
  cases hinput : run.input.abi? with
  | none => exact Config.abi_mem_choices_of_load hbase
  | some abi => exact DumpInput.abi_mem_choices run.accepted abi hinput

theorem length_toText_le {path : Path} (h : FileSystem.isReachable path = true) :
    path.toText.length ≤ 4095 := by
  rw [FileSystem.isReachable, decide_eq_true_eq] at h
  exact (Text.utf8ByteSize_bounds _).1.trans h

theorem length_toText_output_le : run.output.toText.length ≤ 4095 :=
  length_toText_le (FileSystem.read?_eq_some_iff.1 (FileSystem.read?_of_write run.written)).2.2.1

/-- The answer of a dump that has written its file is short. -/
theorem isPrintable : Session.isPrintable (Session.stamped environment "dump" (Answer.success
    (Dump.summary (environment.directory.resolve run.input.snapshot) run.output run.config.abi
      run.graph (Document.render run.graph) ++ [("stats", run.progress.stats.toJson)]))) = true := by
  obtain ⟨hstats, hsize⟩ := run.isWithin_stats
  have hlimit : 4 * Text.maxUnits ≤ Number.maxSafe := by decide
  obtain ⟨text, value, htext, -⟩ := FileSystem.load_eq_ok_iff.1 run.loaded
  obtain ⟨-, -, hsnapshot, -⟩ := FileSystem.read?_eq_some_iff.1 htext
  obtain ⟨-, -, -, hfits⟩ := FileSystem.read?_eq_some_iff.1 (FileSystem.read?_of_write run.written)
  have hbytes : (Document.render run.graph).utf8ByteSize ≤ Number.maxSafe := by
    have hlength : (Document.render run.graph).length ≤ Text.maxUnits := Text.length_le_of_fits hfits
    have hfour := (Text.utf8ByteSize_bounds (Document.render run.graph)).2
    omega
  have habi : ∀ name ∈ Abi.choices, name.length ≤ 4095 := by decide
  have hdata : Json.Members.room (Dump.summary (environment.directory.resolve run.input.snapshot)
      run.output run.config.abi run.graph (Document.render run.graph) ++
        [("stats", run.progress.stats.toJson)]) ≤ 120000 :=
    (Session.room_cons_le (by decide) (Session.prettySize_string_le (length_toText_le hsnapshot))
      (Session.room_cons_le (by decide) (Session.prettySize_string_le run.length_toText_output_le)
        (Session.room_cons_le (by decide) (Session.prettySize_string_le (habi _ run.abi_mem_choices))
          (Session.room_cons_le (by decide) (Session.prettySize_nat_le (by omega) 2)
            (Session.room_cons_le (by decide) (Session.prettySize_nat_le hbytes 2)
              (Session.room_cons_le (by decide) (hstats.prettySize_toJson_le (by omega))
                Session.room_nil_le)))))).trans (by decide)
  exact Session.isPrintable_success (by decide) (by simp [Dump.summary])
    ((Nat.add_le_add_right hdata 2000).trans (by decide))

/-! ### Answers from the document -/

end DumpRun

end CallGraph
