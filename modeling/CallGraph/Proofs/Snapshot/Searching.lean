import CallGraph.Proofs.Snapshot.Covering
import Mathlib.Data.List.MinMax

/-!
# Halving against looking everywhere

What an engine over a snapshot says of an address is what a look at every function gives: the ones
around the address are kept, and the last of them to start answers. No order, nesting or overlap of
the functions is asked for.
-/

namespace CallGraph.Snapshot

/-- The functions around an address, in the order of the snapshot. -/
def around (snapshot : Snapshot) (address : Address) : List FunctionEntry :=
  snapshot.functions.filter fun entry => entry.start ≤ address ∧ address < entry.stop

variable {snapshot : Snapshot} {address : Address} {entry other : FunctionEntry}

theorem mem_around_iff : entry ∈ snapshot.around address ↔
    entry ∈ snapshot.functions ∧ entry.start ≤ address ∧ address < entry.stop := by
  simp [around]

/-- To own an address is to start last among the functions around it. -/
theorem isOwner_iff_mem_around : snapshot.IsOwner address entry ↔
    entry ∈ snapshot.around address ∧
      ∀ other ∈ snapshot.around address, other.start ≤ entry.start := by
  constructor
  · intro howner
    refine ⟨mem_around_iff.2 ⟨howner.mem, FunctionEntry.covers_iff.1 howner.covers⟩, ?_⟩
    intro other hother
    obtain ⟨hmem, hcovers⟩ := mem_around_iff.1 hother
    exact howner.latest other hmem (FunctionEntry.covers_iff.2 hcovers)
  · rintro ⟨haround, hlatest⟩
    obtain ⟨hmem, hcovers⟩ := mem_around_iff.1 haround
    refine ⟨hmem, FunctionEntry.covers_iff.2 hcovers, ?_⟩
    intro other hother hbeside
    apply hlatest
    exact mem_around_iff.2 ⟨hother, FunctionEntry.covers_iff.1 hbeside⟩

/-- Two functions around an address start apart, so that the one that starts last does so alone. -/
theorem IsOwner.start_lt (hwf : snapshot.WellFormed) (howner : snapshot.IsOwner address entry)
    (hother : other ∈ snapshot.around address) (hne : other ≠ entry) :
    other.start < entry.start := by
  have hle : other.start ≤ entry.start := (isOwner_iff_mem_around.1 howner).2 other hother
  apply lt_of_le_of_ne hle
  intro hstart
  exact hne (hwf.eq_of_start_eq (mem_around_iff.1 hother).1 howner.mem hstart)

/-- Where functions are around an address, one of them is the last to start. -/
theorem exists_isOwner (h : snapshot.around address ≠ []) :
    ∃ entry, snapshot.IsOwner address entry := by
  cases hlatest : (snapshot.around address).argmax FunctionEntry.start with
  | none => exact absurd (List.argmax_eq_none.1 hlatest) h
  | some entry =>
    refine ⟨entry, isOwner_iff_mem_around.2 ⟨List.argmax_mem hlatest, ?_⟩⟩
    intro other hother
    exact List.le_of_mem_argmax hother hlatest

/-- The search comes back with nothing only where there is nothing to find. -/
theorem covering_eq_none_iff (hwf : snapshot.WellFormed) :
    snapshot.index.covering address = none ↔ snapshot.around address = [] := by
  constructor
  · intro hnone
    by_contra hsome
    obtain ⟨entry, howner⟩ := exists_isOwner hsome
    rw [(covering_eq_some_iff hwf).2 howner] at hnone
    cases hnone
  · intro hempty
    apply Option.eq_none_iff_forall_ne_some.2
    intro entry hentry
    have howner : snapshot.IsOwner address entry := (covering_eq_some_iff hwf).1 hentry
    have haround := (isOwner_iff_mem_around.1 howner).1
    rw [hempty] at haround
    cases haround

theorem isCode_of_covering_eq_some (h : snapshot.index.covering address = some entry) :
    snapshot.index.isCode address = entry.code := by
  rw [SnapshotIndex.isCode, h]

theorem symbolAround_of_covering_eq_some (h : snapshot.index.covering address = some entry) :
    snapshot.index.symbolAround address = entry.name? := by
  rw [SnapshotIndex.symbolAround, h, Option.bind_some]

/-- Of an address, an engine over an accepted snapshot says what the one function around it that
starts last says, and nothing where there is none. -/
theorem engine_answers_latest {σ : Type} {value : Option Json} (h : ofJson value = .ok snapshot)
    (fallback : String → Abi → Query σ (Option String)) (address : Address) :
    (snapshot.around address = [] →
      (snapshot.index.engine fallback).isCode address = .ok false ∧
        (snapshot.index.engine fallback).enclosingSymbol address = .ok none) ∧
    (snapshot.around address ≠ [] →
      ∃ entry ∈ snapshot.around address,
        (∀ other ∈ snapshot.around address, other ≠ entry → other.start < entry.start) ∧
        (snapshot.index.engine fallback).isCode address = .ok entry.code ∧
        (snapshot.index.engine fallback).enclosingSymbol address = .ok entry.name?) := by
  have hwf : snapshot.WellFormed := wellFormed_of_ofJson h
  simp only [SnapshotIndex.engine, Except.ok.injEq]
  constructor
  · intro hempty
    have hnone : snapshot.index.covering address = none := (covering_eq_none_iff hwf).2 hempty
    rw [SnapshotIndex.isCode, SnapshotIndex.symbolAround, hnone]
    exact ⟨rfl, rfl⟩
  · intro hsome
    cases hcovering : snapshot.index.covering address with
    | none => exact absurd ((covering_eq_none_iff hwf).1 hcovering) hsome
    | some entry =>
      have howner : snapshot.IsOwner address entry := (covering_eq_some_iff hwf).1 hcovering
      refine ⟨entry, (isOwner_iff_mem_around.1 howner).1, ?_, ?_, ?_⟩
      · intro other hother hne
        exact howner.start_lt hwf hother hne
      · exact isCode_of_covering_eq_some hcovering
      · exact symbolAround_of_covering_eq_some hcovering

/-- Two functions start in another, and the second of them runs on behind it. -/
def crossingValue : Json :=
  .object [
    ("functions", .array [
      .object [("start", .nat 32), ("end", .nat 48), ("name", .string "inner")],
      .object [("start", .nat 16), ("end", .nat 64)],
      .object [("start", .nat 56), ("end", .nat 80), ("name", .string "crossing"),
        ("code", .bool false)]])]

def crossing : Snapshot :=
  ⟨[⟨32, some 48, some "inner", true⟩, ⟨16, some 64, none, true⟩,
    ⟨56, some 80, some "crossing", false⟩], [], []⟩

/-- The engine over these functions, with no tool to ask for symbols. -/
def crossingEngine : Engine Unit :=
  crossing.index.engine fun _ _ => return none

theorem engine_answers_latest_crossing :
    ofJson (some crossingValue) = .ok crossing ∧
      crossingEngine.isCode 60 = .ok false ∧
      crossingEngine.enclosingSymbol 60 = .ok (some "crossing") := by
  have haccepted : ofJson (some crossingValue) = .ok crossing := by decide +kernel
  have haround : crossing.around 60 =
      [⟨16, some 64, none, true⟩, ⟨56, some 80, some "crossing", false⟩] := by decide
  obtain ⟨entry, hmem, hlatest, hcode, hsymbol⟩ :=
    (engine_answers_latest haccepted (fun _ _ => return none) 60).2 (by simp [haround])
  rw [crossingEngine, hcode, hsymbol]
  rw [haround, List.mem_pair] at hmem
  rcases hmem with rfl | rfl
  · exact absurd (hlatest ⟨56, some 80, some "crossing", false⟩ (by decide) (by decide)) (by decide)
  · exact ⟨haccepted, rfl, rfl⟩

end CallGraph.Snapshot
