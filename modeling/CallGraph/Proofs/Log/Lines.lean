import CallGraph.Log.Logger
import CallGraph.Proofs.Json.Values

/-!
# Lines of a log

Whatever stands in the fields of a record, it takes up one line of the log, and reading that line gives back
the head of the record with the fields of the loggers and then its own laid over it. A child adds its fields to
those of its parent before it comes to a record; as it makes no difference which of the layers are put together
first, it writes what a single logger with the fields of all would write.
-/

namespace CallGraph.Log

open Json (Members IsValue)
open Json.Members (IsOverlay)

/-- The text ends in a line feed and has no other end of a line. -/
def IsLine (text : String) : Prop :=
  ∃ front, text.toList = front ++ ['\n'] ∧ '\n' ∉ front ∧ '\r' ∉ front

/-- What is handed on for a record of the given level and layers: nothing when logging is off or the record is
below the threshold, and else one line, which holds the layers laid over one another. -/
inductive IsLogged (threshold : Option Level) (level : Level) (layers : List Members) : List String → Prop
  | off (hoff : threshold = none) : IsLogged threshold level layers []
  | below {least : Level} (hleast : threshold = some least) (hbelow : level.rank < least.rank) :
    IsLogged threshold level layers []
  | line {least : Level} (hleast : threshold = some least) (hreached : least.rank ≤ level.rank)
    {text : String} {members : Members} (hline : IsLine text)
    (hparse : Json.parse text = .ok (.object members)) (hmembers : IsOverlay layers members) :
    IsLogged threshold level layers [text]

namespace Logger

variable {logger : Logger} {record : Record} {layers : List Members}

theorem isValue_head (logger : Logger) (record : Record) : IsValue (.object (logger.head record)) := by
  have hkeys : (logger.head record).map Prod.fst = ["ts", "level", "msg"] := rfl
  refine .object (by rw [hkeys]; decide) (by rw [hkeys]; decide) fun member hmember => ?_
  simp only [head, List.mem_cons, List.not_mem_nil, or_false] at hmember
  rcases hmember with rfl | rfl | rfl <;> exact .string _

/-! ### Children -/

theorem isOverlay_child (h : IsOverlay layers logger.base) {fields : Members}
    (hfields : (fields.map Prod.fst).Nodup) : IsOverlay (layers ++ [fields]) (logger.child fields).base := by
  rw [child, Json.Members.ofList_eq_self h.nodup h.isInReadingOrder]
  exact h.merge hfields

/-- A logger at the end of a chain of children has the fields of all, and is otherwise the first one. -/
theorem isOverlay_foldl_child (h : IsOverlay layers logger.base) {chain : List Members}
    (hchain : ∀ fields ∈ chain, (fields.map Prod.fst).Nodup) :
    ∃ base, IsOverlay (layers ++ chain) base ∧ chain.foldl child logger = { logger with base := base } := by
  induction chain generalizing layers logger with
  | nil => exact ⟨logger.base, by rwa [List.append_nil], rfl⟩
  | cons fields chain ih =>
    obtain ⟨hfields, hchain⟩ := List.forall_mem_cons.1 hchain
    obtain ⟨base, hbase, hlast⟩ := ih (isOverlay_child h hfields) hchain
    refine ⟨base, ?_, hlast⟩
    rwa [List.append_cons]

/-! ### Records -/

/-- A record is written as its head, with the fields of the logger and its own laid over it. -/
theorem isOverlay_members (h : IsOverlay layers logger.base) (hfields : (record.fields.map Prod.fst).Nodup) :
    IsOverlay (logger.head record :: (layers ++ [record.fields])) (logger.members record) := by
  have hhead := (isValue_head logger record).isOverlay
  have hall : IsOverlay ([logger.head record] ++ logger.base :: [record.fields]) (logger.members record) :=
    (hhead.merge h.nodup).merge hfields
  exact h.flatten hall

theorem isLine_text (value : Json) : IsLine (String.ofList (value.compactChars ++ ['\n'])) := by
  refine ⟨value.compactChars, String.toList_ofList, fun hmem => ?_, fun hmem => ?_⟩
  · exact absurd (Json.le_toNat_of_mem_compactChars hmem) (by decide)
  · exact absurd (Json.le_toNat_of_mem_compactChars hmem) (by decide)

theorem parse_text {value : Json} (h : IsValue value) :
    Json.parse (String.ofList (value.compactChars ++ ['\n'])) = .ok value := by
  rw [Json.parse, String.toList_ofList]
  exact Json.parseChars_compactChars_append h.readsAs (Json.endsNumeral_newline 0 []) rfl

theorem isLogged_texts (hlayers : ∀ layer ∈ layers, IsValue (.object layer))
    (hmembers : IsOverlay layers (logger.members record)) :
    IsLogged logger.threshold record.level layers (logger.texts record) := by
  rw [texts, writes]
  cases hthreshold : logger.threshold with
  | none => exact .off rfl
  | some least =>
    by_cases hreached : least.rank ≤ record.level.rank
    · rw [if_pos (decide_eq_true hreached)]
      exact .line rfl hreached (isLine_text _) (parse_text (hmembers.isValue hlayers)) hmembers
    · rw [if_neg (by simpa using hreached)]
      exact .below rfl (not_le.1 hreached)

/-- A chain of children writes each record as one line or not at all, and just as a single logger does whose
fields are those of all, merged from left to right. -/
theorem texts_foldl_child {base : Members} {chain : List Members} {record : Record}
    (hbase : IsValue (.object base)) (hchain : ∀ fields ∈ chain, IsValue (.object fields))
    (hfields : IsValue (.object record.fields)) (stamp : String) (threshold : Option Level) :
    let root : Logger := ⟨stamp, base, threshold⟩
    let merged : Logger := ⟨stamp, chain.foldl Members.merge base, threshold⟩
    IsLogged threshold record.level (root.head record :: (base :: chain ++ [record.fields]))
        ((chain.foldl child root).texts record) ∧
      IsOverlay (base :: chain) merged.base ∧
      (chain.foldl child root).texts record = merged.texts record := by
  intro root merged
  have hroot : IsOverlay [base] root.base := hbase.isOverlay
  have hkeys : ∀ fields ∈ chain, (fields.map Prod.fst).Nodup := fun fields hmem => (hchain fields hmem).nodup
  have hmerged : IsOverlay (base :: chain) merged.base := hroot.foldl_merge hkeys
  -- Both have the same fields, as these are determined by the layers.
  have hsame : chain.foldl child root = merged := by
    obtain ⟨last, hlast, hlogger⟩ := isOverlay_foldl_child hroot hkeys
    rw [hlogger, hlast.unique hmerged]
  have hlayers : ∀ layer ∈ merged.head record :: (base :: chain ++ [record.fields]), IsValue (.object layer) := by
    rw [List.forall_mem_cons, List.forall_mem_append, List.forall_mem_cons, List.forall_mem_singleton]
    exact ⟨isValue_head merged record, ⟨hbase, hchain⟩, hfields⟩
  have hmembers := isOverlay_members hmerged hfields.nodup
  rw [hsame]
  exact ⟨isLogged_texts hlayers hmembers, hmerged, rfl⟩

/-- A logger of a component, whose fields override the message of all records. -/
def idling : Logger :=
  ⟨"2024-01-01T00:00:00.000Z", [("component", .string "cli"), ("msg", .string "idle")], some .info⟩

/-- The fields of two children, which override the level and once more the message. -/
def overriding : List Members :=
  [[("7", .bool true), ("level", .string "loud\r\n")], [("msg", .object [("2", .null), ("note", .string "a\tb")])]]

/-- A record whose fields override one of the logger, with the number nearest to a tenth. -/
def interrupted : Record where
  level := .warn
  message := "first\nsecond"
  fields := [("3", .number (.finite (3602879701896397 / 36028797018963968))),
    ("component", .array [.string "\"\n\""])]

def interruptedLine : String :=
  "\x7b\"3\":0.1,\"7\":true,\"ts\":\"2024-01-01T00:00:00.000Z\",\"level\":\"loud\\r\\n\"," ++
    "\"msg\":\x7b\"2\":null,\"note\":\"a\\tb\"\x7d,\"component\":[\"\\\"\\n\\\"\"]\x7d\n"

theorem texts_foldl_child_overriding :
    IsValue (.object idling.base) ∧ (∀ fields ∈ overriding, IsValue (.object fields)) ∧
      IsValue (.object interrupted.fields) ∧
      IsLogged (some .info) .warn
        (idling.head interrupted :: (idling.base :: overriding ++ [interrupted.fields])) [interruptedLine] := by
  have hbase : IsValue (.object idling.base) := by
    refine .object (by decide) (by decide) ?_
    simp only [idling, List.forall_mem_cons]
    exact ⟨.string _, .string _, List.forall_mem_nil _⟩
  have hchain : ∀ fields ∈ overriding, IsValue (.object fields) := by
    have hmessage : IsValue (.object [("2", .null), ("note", .string "a\tb")]) := by
      refine .object (by decide) (by decide) ?_
      simp only [List.forall_mem_cons]
      exact ⟨.null, .string _, List.forall_mem_nil _⟩
    simp only [overriding, List.forall_mem_cons]
    refine ⟨.object (by decide) (by decide) ?_, .object (by decide) (by decide) ?_, List.forall_mem_nil _⟩
    · simp only [List.forall_mem_cons]
      exact ⟨.bool _, .string _, List.forall_mem_nil _⟩
    · simp only [List.forall_mem_cons]
      exact ⟨hmessage, List.forall_mem_nil _⟩
  have hfields : IsValue (.object interrupted.fields) := by
    have htenth : Number.IsBinary64 (3602879701896397 / 36028797018963968) :=
      ⟨3602879701896397, -55, by norm_num, by norm_num, by norm_num, by
        rw [abs_of_pos (by norm_num)]
        norm_num⟩
    refine .object (by decide) (by decide) ?_
    simp only [interrupted, List.forall_mem_cons]
    refine ⟨.number htenth, .array ?_, List.forall_mem_nil _⟩
    simp only [List.forall_mem_cons]
    exact ⟨.string _, List.forall_mem_nil _⟩
  obtain ⟨hlogged, -, -⟩ := texts_foldl_child hbase hchain hfields idling.stamp idling.threshold
  refine ⟨hbase, hchain, hfields, ?_⟩
  have htexts : (overriding.foldl child idling).texts interrupted = [interruptedLine] := by
    decide +kernel
  rw [← htexts]
  exact hlogged

end Logger

end CallGraph.Log
