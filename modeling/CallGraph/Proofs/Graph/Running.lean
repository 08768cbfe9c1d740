import CallGraph.Graph.Build
import CallGraph.Proofs.Graph.Overwriting
import CallGraph.Proofs.Text.Order

/-!
# What a build does

A build is followed function by function. `outcome_recorded` says all that must have happened for
one function to be recorded, and the other statements lead from single functions to whole builds:
what holds of every record that one function can add holds of all records of the graph, and where
the answers do not depend on the state, the build is a fold over them.
-/

namespace CallGraph

namespace Query

variable {σ α β : Type}

@[simp] theorem runFrom_pure (value : α) (state : σ) :
    (pure value : Query σ α).runFrom state = (.ok value, state) := rfl

@[simp] theorem runFrom_ofExcept (answer : Except Fault α) (state : σ) :
    (ofExcept answer : Query σ α).runFrom state = (answer, state) := rfl

@[simp] theorem ofExcept_ok (value : α) : (ofExcept (.ok value) : Query σ α) = pure value := rfl

theorem runFrom_bind (query : Query σ α) (next : α → Query σ β) (state : σ) :
    (query >>= next).runFrom state =
      match query.runFrom state with
      | (.ok value, after) => (next value).runFrom after
      | (.error fault, after) => (.error fault, after) := by
  unfold runFrom ExceptT.run StateT.run
  simp only [bind, ExceptT.bind, ExceptT.mk, StateT.bind]
  rcases query state with ⟨answer, after⟩
  cases answer <;> rfl

theorem runFrom_bind_eq_ok_iff {query : Query σ α} {next : α → Query σ β} {state final : σ}
    {result : β} :
    (query >>= next).runFrom state = (.ok result, final) ↔
      ∃ value after, query.runFrom state = (.ok value, after) ∧
        (next value).runFrom after = (.ok result, final) := by
  rw [runFrom_bind]
  rcases query.runFrom state with ⟨answer, after⟩
  cases answer <;> simp

theorem runFrom_ofExcept_bind_eq_ok_iff {answer : Except Fault α} {next : α → Query σ β}
    {state final : σ} {result : β} :
    (ofExcept answer >>= next).runFrom state = (.ok result, final) ↔
      ∃ value, answer = .ok value ∧ (next value).runFrom state = (.ok result, final) := by
  rw [runFrom_bind, runFrom_ofExcept]
  cases answer <;> simp

end Query

namespace Graph

variable {σ : Type} {engine : Engine σ} {filter : NameFilter} {abi : Abi}

/-! ### One function -/

theorem length_callerNames_le {origins : List Address} {state final : σ} {names : List String}
    (h : (callerNames engine abi origins).runFrom state = (.ok names, final)) :
    names.length ≤ origins.length := by
  induction origins generalizing state final names with
  | nil =>
    obtain ⟨rfl, -⟩ : names = [] ∧ state = final := by simpa [callerNames] using h
    exact Nat.le_refl _
  | cons origin rest ih =>
    rw [callerNames, Query.runFrom_bind_eq_ok_iff] at h
    obtain ⟨name?, middle, -, h⟩ := h
    rw [Query.runFrom_bind_eq_ok_iff] at h
    obtain ⟨others, last, hothers, h⟩ := h
    obtain ⟨rfl, -⟩ : name?.toList ++ others = names ∧ last = final := by simpa using h
    have hname : name?.toList.length ≤ 1 := by cases name? <;> simp
    have := ih hothers
    rw [List.length_append, List.length_cons]
    omega

/-- All that happened when work on a function, begun in a state, ended with a record. -/
structure Recording (engine : Engine σ) (filter : NameFilter) (abi : Abi) (address : Address)
    (state : σ) (record : CallRecord) (dropped : Nat) (final : σ) where
  symbol : String
  text : String
  middle : σ
  origins : List Address
  collected : List String
  isCode : engine.isCode address = .ok true
  rawSymbol : engine.rawSymbol address = .ok (some symbol)
  symbol_ne : symbol ≠ ""
  plain : Text.occursIn "::".toList symbol.toList = false
  demangle : (engine.demangle symbol abi).runFrom state = (.ok (some text), middle)
  text_ne : text ≠ ""
  name : record.name = Name.canonical text
  accepted : filter.accepts record.name = true
  referencesTo : engine.referencesTo address = .ok origins
  callerNames : (callerNames engine abi origins).runFrom middle = (.ok collected, final)
  callers : record.callers = Text.sortByCodePoint (collected.filter filter.accepts)
  callCount : record.callCount = .ofNat record.callers.length
  dropped : dropped = collected.length - record.callers.length

theorem outcome_recorded {address : Address} {state final : σ} {record : CallRecord} {dropped : Nat}
    (h : (outcome engine filter abi address).runFrom state
      = (.ok (.recorded record dropped), final)) :
    Nonempty (Recording engine filter abi address state record dropped final) := by
  rw [outcome, Query.runFrom_ofExcept_bind_eq_ok_iff] at h
  obtain ⟨code, hcode, h⟩ := h
  cases code with
  | false => simp at h
  | true =>
    rw [if_pos rfl, Query.runFrom_ofExcept_bind_eq_ok_iff] at h
    obtain ⟨symbol?, hsymbol, h⟩ := h
    split at h
    · simp at h
    · next symbol hnamed =>
      obtain ⟨rfl, hnonempty⟩ := Text.nonEmpty_eq_some_iff.1 hnamed
      split at h
      · simp at h
      · next hplain =>
        rw [Query.runFrom_bind_eq_ok_iff] at h
        obtain ⟨name?, middle, hname, h⟩ := h
        rw [canonicalName?, Query.runFrom_bind_eq_ok_iff] at hname
        obtain ⟨text?, _, htext, hname⟩ := hname
        rw [Query.runFrom_pure, Prod.mk.injEq, Except.ok.injEq] at hname
        obtain ⟨rfl, rfl⟩ := hname
        split at h
        · simp at h
        · next name hmap =>
          obtain ⟨text, hfound, rfl⟩ := Option.map_eq_some_iff.1 hmap
          obtain ⟨rfl, htextNonempty⟩ := Text.nonEmpty_eq_some_iff.1 hfound
          split at h
          · next haccepts =>
            rw [Query.runFrom_bind_eq_ok_iff] at h
            obtain ⟨collected, _, hcollected, h⟩ := h
            rw [callers, Query.runFrom_ofExcept_bind_eq_ok_iff] at hcollected
            obtain ⟨origins, horigins, hcollected⟩ := hcollected
            simp only [Query.runFrom_pure, Prod.mk.injEq, Except.ok.injEq,
              Outcome.recorded.injEq] at h
            obtain ⟨⟨rfl, rfl⟩, rfl⟩ := h
            exact ⟨symbol, text, _, origins, collected, hcode, hsymbol, hnonempty,
              Bool.eq_false_iff.2 hplain, htext, htextNonempty, rfl, haccepts, horigins, hcollected,
              rfl, rfl, rfl⟩
          · simp at h

/-- Work on a function of one engine comes to the same as work on a function of another that answers
alike, with the same callers in whatever order. -/
theorem outcome_congr {other : Engine σ} {address moved : Address}
    {collected collectedOther : List String} (hcode : other.isCode moved = engine.isCode address)
    (hsymbol : other.rawSymbol moved = engine.rawSymbol address)
    (hdemangle : ∀ symbol, other.demangle symbol abi = engine.demangle symbol abi)
    (hcallers : Graph.callers engine abi address = pure collected)
    (hcallersOther : Graph.callers other abi moved = pure collectedOther)
    (hperm : collectedOther.Perm collected) :
    outcome other filter abi moved = outcome engine filter abi address := by
  have hname : ∀ symbol, canonicalName? other abi symbol = canonicalName? engine abi symbol := by
    intro symbol
    rw [canonicalName?, canonicalName?, hdemangle]
  have hsorted : Text.sortByCodePoint (collectedOther.filter filter.accepts) =
      Text.sortByCodePoint (collected.filter filter.accepts) :=
    Text.sortByCodePoint_eq_of_perm (hperm.filter _)
  rw [outcome, outcome, hcode, hsymbol]
  simp only [hname, hcallers, hcallersOther, pure_bind, hsorted, hperm.length_eq]

/-! ### Taking in what came of a function -/

def record? : Except Fault Outcome → Option CallRecord
  | .ok (.recorded record _) => some record
  | _ => none

/-- A record that takes the place of another counts as a collision, and is told. -/
theorem advance_recorded (progress : Progress) (address : Address) (record : CallRecord)
    (dropped : Nat) :
    progress.advance address (.ok (.recorded record dropped)) =
      ({ graph := (progress.graph.replace record).2
         stats := { progress.stats with
           recorded := progress.stats.recorded + 1
           droppedCallers := progress.stats.droppedCallers + dropped
           collisions := progress.stats.collisions +
             (progress.graph.replace record).1.toList.length } },
        (progress.graph.replace record).1.map fun previous =>
          .collision record.name address previous.callCount) := by
  rw [Progress.advance, replace]
  cases progress.graph.get? record.name <;> rfl

theorem graph_advance (progress : Progress) (address : Address) (answer : Except Fault Outcome) :
    (progress.enter.advance address answer).1.graph =
      match record? answer with
      | some record => progress.graph.set record
      | none => progress.graph := by
  rcases answer with fault | ⟨record, dropped⟩ | reason
  · rfl
  · rw [advance_recorded]
    rfl
  · rfl

variable {tell : BuildEvent → σ → σ}

theorem fst_takeIn (progress : Progress) (address : Address) (turn : Except Fault Outcome × σ) :
    (takeIn tell progress address turn).1 = (progress.enter.advance address turn.1).1 := by
  unfold takeIn
  rcases progress.enter.advance address turn.1 with ⟨next, event⟩
  cases event <;> rfl

theorem takeIn_kept {kept : σ → Prop} (htell : ∀ event state, kept state → kept (tell event state))
    (progress : Progress) (address : Address) {turn : Except Fault Outcome × σ}
    (hturn : kept turn.2) : kept (takeIn tell progress address turn).2 := by
  unfold takeIn
  dsimp only
  split
  · exact htell _ _ hturn
  · exact hturn

def afterTurn (engine : Engine σ) (filter : NameFilter) (abi : Abi) (tell : BuildEvent → σ → σ)
    (address : Address) (progress : Progress) (state : σ) : Progress × σ :=
  takeIn tell progress address ((outcome engine filter abi address).runFrom state)

theorem graph_afterTurn (address : Address) (progress : Progress) (state : σ) :
    (afterTurn engine filter abi tell address progress state).1.graph =
      match record? ((outcome engine filter abi address).runFrom state).1 with
      | some record => progress.graph.set record
      | none => progress.graph := by
  rw [← graph_advance progress address, afterTurn, fst_takeIn]

theorem buildFrom_cons_eq_ok_iff {address : Address} {rest : List Address}
    {progress last : Progress} {state final : σ} :
    buildFrom engine filter abi tell (address :: rest) progress state = (.ok last, final) ↔
      goesOn ((outcome engine filter abi address).runFrom state).1 = true ∧
        buildFrom engine filter abi tell rest
          (afterTurn engine filter abi tell address progress state).1
          (afterTurn engine filter abi tell address progress state).2 = (.ok last, final) := by
  rw [buildFrom]
  dsimp only
  split
  · next hgoes => simp [hgoes, afterTurn]
  · next hstops => simp [hstops]

def progressOn (answer : Address → Except Fault Outcome) (addresses : List Address)
    (progress : Progress) : Progress :=
  addresses.foldl (fun progress address => (progress.enter.advance address (answer address)).1)
    progress

theorem graph_progressOn (answer : Address → Except Fault Outcome) (addresses : List Address)
    (progress : Progress) :
    (progressOn answer addresses progress).graph =
      (addresses.filterMap fun address => record? (answer address)).foldl set progress.graph := by
  induction addresses generalizing progress with
  | nil => rfl
  | cons address rest ih =>
    rw [progressOn, List.foldl_cons, ← progressOn, ih, graph_advance, List.filterMap_cons]
    cases record? (answer address) <;> rfl

/-- The address of a function is only told, not counted. -/
theorem fst_advance_congr (progress : Progress) (address other : Address)
    (answer : Except Fault Outcome) :
    (progress.advance address answer).1 = (progress.advance other answer).1 := by
  rcases answer with fault | ⟨record, dropped⟩ | reason
  · rfl
  · rw [advance_recorded, advance_recorded]
  · rfl

/-- The progress depends on the answers and their order, not on where they come from. -/
theorem progressOn_congr {answer answerOther : Address → Except Fault Outcome}
    {addresses others : List Address}
    (h : others.map answerOther = addresses.map answer) (progress : Progress) :
    progressOn answerOther others progress = progressOn answer addresses progress := by
  induction addresses generalizing others progress with
  | nil =>
    obtain rfl := List.map_eq_nil_iff.1 h
    rfl
  | cons address rest ih =>
    obtain ⟨other, others, rfl, hfirst, hrest⟩ := List.map_eq_cons_iff.1 h
    have hnext : (progress.enter.advance other (answerOther other)).1 =
        (progress.enter.advance address (answer address)).1 := by
      rw [hfirst]
      exact fst_advance_congr progress.enter other address (answer address)
    rw [progressOn, progressOn, List.foldl_cons, List.foldl_cons, hnext]
    exact ih hrest _

/-- Where the answers are the same in all states that can come up, and none of them ends the build,
the build succeeds, and its progress is that of the answers. -/
theorem buildFrom_of_settled (tell : BuildEvent → σ → σ) (possible : σ → Prop)
    (answer : Address → Except Fault Outcome)
    {addresses : List Address} (hgoes : ∀ address ∈ addresses, goesOn (answer address) = true)
    (hanswer : ∀ address ∈ addresses, ∀ state, possible state →
      ((outcome engine filter abi address).runFrom state).1 = answer address ∧
        possible ((outcome engine filter abi address).runFrom state).2)
    (htell : ∀ event state, possible state → possible (tell event state))
    (progress : Progress) {state : σ} (hstate : possible state) :
    ∃ final, possible final ∧ buildFrom engine filter abi tell addresses progress state =
      (.ok (progressOn answer addresses progress), final) := by
  induction addresses generalizing progress state with
  | nil => exact ⟨state, hstate, rfl⟩
  | cons address rest ih =>
    obtain ⟨hfirst, hpossible⟩ := hanswer address (List.mem_cons_self ..) state hstate
    have hnext : possible (afterTurn engine filter abi tell address progress state).2 :=
      takeIn_kept htell progress address hpossible
    obtain ⟨final, hfinal, hrest⟩ := ih (fun other h => hgoes other (List.mem_cons_of_mem _ h))
      (fun other h => hanswer other (List.mem_cons_of_mem _ h))
      (afterTurn engine filter abi tell address progress state).1 hnext
    refine ⟨final, hfinal, buildFrom_cons_eq_ok_iff.2 ⟨?_, ?_⟩⟩
    · rw [hfirst]
      exact hgoes address (List.mem_cons_self ..)
    · rw [hrest, progressOn, progressOn, List.foldl_cons, afterTurn, fst_takeIn, hfirst]

end Graph

end CallGraph
