import CallGraph.Proofs.Demangler.Knowing
import CallGraph.Proofs.Text.Distinct

/-!
# Calls of a demangler

A demangler is called for one symbol or for many. Every call comes to asking about the symbols that are
still open, so that one step covers both kinds of calls, and `Asks` says all that it can do.
-/

namespace CallGraph

namespace Demangler

open Session (spawns)

inductive Call
  | askAhead (symbols : List String) (abi : Abi)
  | demangle (symbol : String) (abi : Abi)
  deriving DecidableEq, Repr

namespace Call

def symbols : Call → List String
  | .askAhead symbols _ => symbols
  | .demangle symbol _ => [symbol]

def abi : Call → Abi
  | .askAhead _ abi => abi
  | .demangle _ abi => abi

end Call

/-- The answer to a call, and the demangler after it. -/
def perform (demangler : Demangler) (tools : Toolbox) : Call → Option String × Demangler
  | .askAhead symbols abi => (none, demangler.askAhead tools symbols abi)
  | .demangle symbol abi => demangler.demangle tools symbol abi

/-- The symbols of a call that are still open. -/
def wanted (demangler : Demangler) (call : Call) : List String :=
  if call.abi = .itanium then demangler.pending call.symbols else []

/-- The batch that a call hands to the tools, if it does. -/
def sent? (demangler : Demangler) (call : Call) : Option (List String) :=
  if demangler.givenUp || (demangler.wanted call).isEmpty then none else some (demangler.wanted call)

variable {demangler : Demangler} {tools : Toolbox} {call : Call} {symbol : String}

/-! ### One call -/

theorem mem_wanted_iff :
    symbol ∈ demangler.wanted call ↔ call.abi = .itanium ∧ symbol ∈ call.symbols ∧
      isItaniumSymbol symbol = true ∧ demangler.knows symbol = false := by
  rw [wanted]
  split
  · next hitanium =>
    rw [pending, List.mem_eraseDups, List.mem_filter, Bool.and_eq_true, Bool.not_eq_true']
    simp [hitanium]
  · next hother => simp [hother]

theorem sent?_eq_some_iff {batch : List String} :
    demangler.sent? call = some batch ↔
      demangler.givenUp = false ∧ batch ≠ [] ∧ demangler.wanted call = batch := by
  rw [sent?]
  split
  · next hleft =>
    simp only [reduceCtorEq, false_iff, not_and]
    rintro hstill hsome rfl
    simp [hstill, hsome] at hleft
  · next hasked =>
    simp only [Bool.or_eq_true, List.isEmpty_iff, not_or, Bool.not_eq_true] at hasked
    obtain ⟨hstill, hsome⟩ := hasked
    rw [Option.some.injEq]
    refine ⟨?_, fun h => h.2.2⟩
    rintro rfl
    exact ⟨hstill, hsome, rfl⟩

theorem nodup_wanted (demangler : Demangler) (call : Call) : (demangler.wanted call).Nodup := by
  rw [wanted]
  split
  · exact nodup_eraseDups _
  · exact List.nodup_nil

/-- What comes of asking tools about symbols. Where the tools have been given up, or none of them is
usable, the symbols are known not to demangle. -/
inductive Asks (tools : Toolbox) (demangler : Demangler) (symbols : List String) : Demangler → Prop
  | nothing (hnone : symbols = []) : Asks tools demangler symbols demangler
  | givenUp (hgivenUp : demangler.givenUp = true) :
    Asks tools demangler symbols (demangler.learn symbols none)
  | answered {answers : Answers} {events : List Trace} (hsome : symbols ≠ [])
    (hstill : demangler.givenUp = false)
    (htry : tryCommands tools symbols demangler.commands = (some answers, events)) :
    Asks tools demangler symbols ((demangler.note events).learn symbols (some answers))
  | failed {events : List Trace} (hsome : symbols ≠ []) (hstill : demangler.givenUp = false)
    (htry : tryCommands tools symbols demangler.commands = (none, events)) :
    Asks tools demangler symbols
      ({ demangler.note (events ++ [Trace.logged (unavailableRecord demangler.commands)]) with
        givenUp := true }.learn symbols none)

theorem asks_askAhead (demangler : Demangler) (tools : Toolbox) (symbols : List String) :
    Asks tools demangler (demangler.pending symbols)
      (demangler.askAhead tools symbols .itanium) := by
  rw [askAhead, if_pos rfl]
  dsimp only
  split
  · next hempty => exact .nothing (List.isEmpty_iff.1 hempty)
  · next hsome =>
    have hpending : demangler.pending symbols ≠ [] := fun h => hsome (List.isEmpty_iff.2 h)
    rw [ask]
    split
    · next hgivenUp => exact .givenUp hgivenUp
    · next hstill =>
      have hfalse : demangler.givenUp = false := Bool.eq_false_iff.2 hstill
      split
      · next answers events htry => exact .answered hpending hfalse htry
      · next events htry => exact .failed hpending hfalse htry

theorem snd_demangle_eq_askAhead (demangler : Demangler) (tools : Toolbox) (symbol : String)
    (abi : Abi) :
    (demangler.demangle tools symbol abi).2 = demangler.askAhead tools [symbol] abi := by
  rw [demangle, askAhead]
  by_cases habi : abi = .itanium
  · by_cases hitanium : isItaniumSymbol symbol = true
    · by_cases hknown : demangler.knows symbol = true
      · simp [habi, hitanium, hknown, pending]
      · simp [habi, hitanium, hknown]
    · simp [habi, hitanium, pending]
  · simp [habi]

theorem snd_perform (demangler : Demangler) (tools : Toolbox) (call : Call) :
    (demangler.perform tools call).2 = demangler.askAhead tools call.symbols call.abi := by
  cases call with
  | askAhead symbols abi => rfl
  | demangle symbol abi => exact snd_demangle_eq_askAhead demangler tools symbol abi

theorem asks_perform (demangler : Demangler) (tools : Toolbox) (call : Call) :
    Asks tools demangler (demangler.wanted call) (demangler.perform tools call).2 := by
  rw [snd_perform, wanted]
  split
  · next hitanium =>
    rw [hitanium]
    exact asks_askAhead demangler tools call.symbols
  · next hother =>
    rw [askAhead, if_neg hother]
    exact .nothing rfl

theorem Asks.commands_eq {symbols : List String} {after : Demangler}
    (h : Asks tools demangler symbols after) : after.commands = demangler.commands := by
  cases h <;> rfl

theorem Asks.eq_self {after : Demangler} (h : Asks tools demangler [] after) :
    after = demangler := by
  cases h with
  | nothing => rfl
  | givenUp => rfl
  | answered hsome => exact absurd rfl hsome
  | failed hsome => exact absurd rfl hsome

/-- What the tools have to say about symbols, unless they have been given up. -/
def said (demangler : Demangler) (tools : Toolbox) (symbols : List String) : Option Answers :=
  if demangler.givenUp then none else (tryCommands tools symbols demangler.commands).1

/-- Asking adds answers for its symbols and changes none. -/
theorem Asks.lookup_eq {symbols : List String} {after : Demangler}
    (h : Asks tools demangler symbols after) (symbol : String) :
    after.cache.lookup symbol =
      if symbol ∈ symbols then some (((demangler.said tools symbols).getD []).lookup symbol).join
      else demangler.cache.lookup symbol := by
  rw [said]
  cases h with
  | nothing hnone => rw [hnone, if_neg List.not_mem_nil]
  | givenUp hgivenUp =>
    rw [if_pos hgivenUp]
    exact lookup_learn _ _ _ _
  | answered _ hstill htry =>
    rw [hstill, htry]
    exact lookup_learn _ _ _ _
  | failed _ hstill htry =>
    rw [hstill, htry]
    exact lookup_learn _ _ _ _

theorem Asks.knows_eq {symbols : List String} {after : Demangler}
    (h : Asks tools demangler symbols after) (symbol : String) :
    after.knows symbol = (decide (symbol ∈ symbols) || demangler.knows symbol) := by
  rw [knows, h.lookup_eq, knows]
  by_cases hsymbol : symbol ∈ symbols <;> simp [hsymbol]

theorem fst_tryCommands_eq_none_iff {symbols commands : List String} :
    (tryCommands tools symbols commands).1 = none ↔
      ∀ command ∈ commands, isUsable tools symbols command = false := by
  rw [fst_tryCommands, Option.map_eq_none_iff, List.find?_eq_none]
  simp only [Bool.not_eq_true]

/-- Where the tools have been given up, or none of them is usable, a symbol without an answer stays
without one, and a symbol that is known not to demangle is no different. -/
theorem Asks.join_lookup_eq {symbols : List String} {after : Demangler}
    (h : Asks tools demangler symbols after)
    (hfresh : ∀ other ∈ symbols, demangler.knows other = false)
    (hfailed : demangler.givenUp = true ∨
      ∀ command ∈ demangler.commands, isUsable tools symbols command = false) (symbol : String) :
    (after.cache.lookup symbol).join = (demangler.cache.lookup symbol).join := by
  have hsilent : demangler.said tools symbols = none := by
    rw [said]
    split
    · rfl
    · next hstill => exact fst_tryCommands_eq_none_iff.2 (hfailed.resolve_left hstill)
  rw [h.lookup_eq, hsilent]
  split
  · next hsymbol =>
    have hnone : demangler.cache.lookup symbol = none := by
      simpa [knows] using hfresh symbol hsymbol
    rw [hnone]
    rfl
  · rfl

/-! ### What a call spawns and logs -/

def runs (commands : List String) (batch : Toolbox × List String) : List Spawn :=
  (tried batch.1 batch.2 commands).map fun command => ⟨command, batchInput batch.2⟩

theorem spawns_perform (demangler : Demangler) (tools : Toolbox) (call : Call) :
    spawns (demangler.perform tools call).2.trace = spawns demangler.trace ++
      ((demangler.sent? call).map fun batch => (tools, batch)).toList.flatMap
        (runs demangler.commands) := by
  have hspawns := spawns_tryCommands tools (demangler.wanted call) demangler.commands
  have hasks := asks_perform demangler tools call
  rw [sent?]
  generalize (demangler.perform tools call).2 = after at hasks ⊢
  cases hasks with
  | nothing hnone => simp [hnone]
  | givenUp hgivenUp => simp [hgivenUp, trace_learn]
  | answered hsome hstill htry =>
    rw [htry] at hspawns
    simp [hstill, hsome, trace_learn, note, spawns_append, hspawns, runs]
  | failed hsome hstill htry =>
    rw [htry] at hspawns
    have hlogged : ∀ record, spawns [Trace.logged record] = [] := fun _ => rfl
    simp [hstill, hsome, trace_learn, note, spawns_append, hspawns, runs, hlogged]

def isSurrender : Trace → Bool
  | .spawned _ => false
  | .logged record => record.message == "cxxfilt_unavailable"

theorem countP_tryCommands (tools : Toolbox) (symbols commands : List String) :
    (tryCommands tools symbols commands).2.countP isSurrender = 0 := by
  induction commands with
  | nil => rfl
  | cons command rest ih =>
    obtain ⟨htry, -⟩ | ⟨record, hrecord, htry, -⟩ := tryCommands_cons tools symbols command rest
    · rw [htry]
      rfl
    · have hother : isSurrender (.logged record) = false := by
        rcases hrecord with rfl | rfl <;> rfl
      rw [htry, List.countP_cons_of_neg (by simp [isSurrender]),
        List.countP_cons_of_neg (by simp [hother]), ih]

theorem Asks.countP_eq {symbols : List String} {after : Demangler}
    (h : Asks tools demangler symbols after)
    (hbefore : demangler.trace.countP isSurrender = demangler.givenUp.toNat) :
    after.trace.countP isSurrender = after.givenUp.toNat := by
  have hevents := countP_tryCommands tools symbols demangler.commands
  cases h with
  | nothing => exact hbefore
  | givenUp => exact hbefore
  | answered hsome hstill htry =>
    rw [htry] at hevents
    show (demangler.trace ++ _).countP isSurrender = demangler.givenUp.toNat
    rw [List.countP_append, hevents, hbefore, Nat.add_zero]
  | failed hsome hstill htry =>
    rw [htry] at hevents
    rw [hstill] at hbefore
    show (demangler.trace ++ (_ ++ [_])).countP isSurrender = 1
    rw [List.countP_append, List.countP_append, hevents, hbefore]
    rfl

theorem givenUp_perform {batch : List String} (hsent : demangler.sent? call = some batch)
    (hfailed : ∀ command ∈ demangler.commands, isUsable tools batch command = false) :
    (demangler.perform tools call).2.givenUp = true := by
  obtain ⟨hstill, hsome, rfl⟩ := sent?_eq_some_iff.1 hsent
  have hasks := asks_perform demangler tools call
  generalize (demangler.perform tools call).2 = after at hasks ⊢
  cases hasks with
  | nothing hnone => exact absurd hnone hsome
  | givenUp hgivenUp => exact hgivenUp
  | failed => rfl
  | answered _ _ htry =>
    have hgiven := congrArg Prod.fst htry
    rw [fst_tryCommands_eq_none_iff.2 hfailed] at hgiven
    cases hgiven

/-! ### The answer to a call -/

theorem fst_demangle (demangler : Demangler) (tools : Toolbox) (symbol : String) (abi : Abi) :
    (demangler.demangle tools symbol abi).1 =
      if abi = .itanium ∧ isItaniumSymbol symbol = true then
        ((demangler.demangle tools symbol abi).2.cache.lookup symbol).join
      else none := by
  rw [demangle]
  simp only [Bool.and_eq_true, decide_eq_true_eq]
  split <;> rfl

theorem fst_demangle_of_knows (hknown : demangler.knows symbol = true)
    (hitanium : isItaniumSymbol symbol = true) (tools : Toolbox) :
    (demangler.demangle tools symbol .itanium).1 = (demangler.cache.lookup symbol).join := by
  rw [fst_demangle, if_pos ⟨rfl, hitanium⟩, snd_demangle (fun _ _ => hknown)]

theorem knows_perform (hitanium : call.abi = .itanium) (hsymbol : symbol ∈ call.symbols)
    (hmangled : isItaniumSymbol symbol = true) :
    (demangler.perform tools call).2.knows symbol = true := by
  rw [(asks_perform demangler tools call).knows_eq, Bool.or_eq_true, decide_eq_true_eq,
    mem_wanted_iff]
  cases hknown : demangler.knows symbol with
  | true => exact .inr rfl
  | false => exact .inl ⟨hitanium, hsymbol, hmangled, rfl⟩

theorem fst_perform_demangle (demangler : Demangler) (tools soon : Toolbox) (symbol : String) :
    (demangler.perform tools (.demangle symbol .itanium)).1 =
      ((demangler.perform tools (.demangle symbol .itanium)).2.demangle soon symbol .itanium).1 := by
  show (demangler.demangle tools symbol .itanium).1 =
    ((demangler.demangle tools symbol .itanium).2.demangle soon symbol .itanium).1
  by_cases hmangled : isItaniumSymbol symbol = true
  · have hknown : (demangler.demangle tools symbol .itanium).2.knows symbol = true := by
      show (demangler.perform tools (.demangle symbol .itanium)).2.knows symbol = true
      exact knows_perform rfl (List.mem_singleton.2 rfl) hmangled
    rw [fst_demangle_of_knows hknown hmangled, fst_demangle, if_pos ⟨rfl, hmangled⟩]
  · rw [fst_demangle, fst_demangle, if_neg (fun h => hmangled h.2), if_neg (fun h => hmangled h.2)]

/-- A call that holds no symbol of the convention is answered without the tools, and leaves nothing
behind. -/
theorem perform_eq_of_other (demangler : Demangler) (tools : Toolbox)
    (h : call.abi ≠ .itanium ∨ ∀ symbol ∈ call.symbols, isItaniumSymbol symbol = false) :
    demangler.perform tools call = (none, demangler) := by
  have hwanted : demangler.wanted call = [] := by
    refine List.eq_nil_iff_forall_not_mem.2 fun symbol hsymbol => ?_
    obtain ⟨hitanium, hin, hmangled, -⟩ := mem_wanted_iff.1 hsymbol
    rcases h with hother | hothers
    · exact hother hitanium
    · rw [hothers symbol hin] at hmangled
      cases hmangled
  have hstate : (demangler.perform tools call).2 = demangler := by
    have hasks := asks_perform demangler tools call
    rw [hwanted] at hasks
    exact hasks.eq_self
  have hanswer : (demangler.perform tools call).1 = none := by
    cases call with
    | askAhead => rfl
    | demangle symbol abi =>
      show (demangler.demangle tools symbol abi).1 = none
      rw [fst_demangle, if_neg]
      rintro ⟨hitanium, hmangled⟩
      rcases h with hother | hothers
      · exact hother hitanium
      · rw [hothers symbol (List.mem_singleton.2 rfl)] at hmangled
        cases hmangled
  exact Prod.ext hanswer hstate

end Demangler

end CallGraph
