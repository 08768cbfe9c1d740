import CallGraph.Proofs.Demangler.Calls

/-!
# The life of a demangler

A demangler is called any number of times, and its tools may behave differently from call to call.
What a life keeps follows from what one call can do: no answer changes once it is there, no symbol is
sent twice, and after the first batch that no tool could handle nothing is sent at all.
-/

namespace CallGraph

namespace Demangler

open Session (spawns)

/-- The demangler after calls, each with the tools that it found. -/
def live (demangler : Demangler) (calls : List (Toolbox × Call)) : Demangler :=
  calls.foldl (fun demangler (tools, call) => (demangler.perform tools call).2) demangler

/-- The batches of a life, with the tools that each found. -/
def batches (demangler : Demangler) : List (Toolbox × Call) → List (Toolbox × List String)
  | [] => []
  | (tools, call) :: rest =>
    ((demangler.sent? call).map fun batch => (tools, batch)).toList ++
      batches (demangler.perform tools call).2 rest

variable {demangler : Demangler} {tools : Toolbox} {call : Call} {symbol : String}
  {calls : List (Toolbox × Call)}

/-! ### What a life keeps -/

theorem live_append (demangler : Demangler) (calls others : List (Toolbox × Call)) :
    demangler.live (calls ++ others) = (demangler.live calls).live others :=
  List.foldl_append ..

theorem live_cons (demangler : Demangler) (tools : Toolbox) (call : Call)
    (calls : List (Toolbox × Call)) :
    demangler.live ((tools, call) :: calls) = (demangler.perform tools call).2.live calls :=
  rfl

theorem commands_live (demangler : Demangler) (calls : List (Toolbox × Call)) :
    (demangler.live calls).commands = demangler.commands := by
  induction calls generalizing demangler with
  | nil => rfl
  | cons first rest ih => rw [live_cons, ih, (asks_perform demangler first.1 first.2).commands_eq]

theorem lookup_live (hknown : demangler.knows symbol = true) (calls : List (Toolbox × Call)) :
    (demangler.live calls).cache.lookup symbol = demangler.cache.lookup symbol := by
  induction calls generalizing demangler with
  | nil => rfl
  | cons first rest ih =>
    have hasks := asks_perform demangler first.1 first.2
    have hopen : symbol ∉ demangler.wanted first.2 := by
      rw [mem_wanted_iff]
      simp [hknown]
    have hstill : (demangler.perform first.1 first.2).2.knows symbol = true := by
      rw [hasks.knows_eq, hknown, Bool.or_true]
    rw [live_cons, ih hstill, hasks.lookup_eq, if_neg hopen]

-- The batches are those of the demangler as each call finds it, so that the induction has to run over
-- all demanglers.
theorem spawns_live (demangler : Demangler) (calls : List (Toolbox × Call)) :
    spawns (demangler.live calls).trace = spawns demangler.trace ++
      (demangler.batches calls).flatMap (runs demangler.commands) := by
  induction calls generalizing demangler with
  | nil => exact (List.append_nil _).symm
  | cons first rest ih =>
    rw [live_cons, ih, spawns_perform, (asks_perform demangler first.1 first.2).commands_eq, batches,
      List.flatMap_append, List.append_assoc]

/-- The symbols that are sent are open until then, and there is no other. -/
theorem batches_spec (demangler : Demangler) (calls : List (Toolbox × Call)) :
    ((demangler.batches calls).flatMap Prod.snd).Nodup ∧
      ∀ batch ∈ demangler.batches calls, batch.2 ≠ [] ∧ ∀ symbol ∈ batch.2,
        isItaniumSymbol symbol = true ∧ demangler.knows symbol = false := by
  induction calls generalizing demangler with
  | nil => exact ⟨List.nodup_nil, fun _ h => absurd h List.not_mem_nil⟩
  | cons first rest ih =>
    obtain ⟨tools, call⟩ := first
    obtain ⟨hnodup, hrest⟩ := ih (demangler.perform tools call).2
    have hknows := (asks_perform demangler tools call).knows_eq
    -- What is sent later was still open after this call.
    have hlater : ∀ batch ∈ (demangler.perform tools call).2.batches rest, ∀ symbol ∈ batch.2,
        symbol ∉ demangler.wanted call ∧ demangler.knows symbol = false := by
      intro batch hbatch symbol hsymbol
      have hopen := ((hrest batch hbatch).2 symbol hsymbol).2
      rw [hknows, Bool.or_eq_false_iff, decide_eq_false_iff_not] at hopen
      exact hopen
    rw [batches]
    cases hsent : demangler.sent? call with
    | none =>
      refine ⟨hnodup, fun batch hbatch => ⟨(hrest batch hbatch).1, fun symbol hsymbol => ?_⟩⟩
      exact ⟨((hrest batch hbatch).2 symbol hsymbol).1, (hlater batch hbatch symbol hsymbol).2⟩
    | some sent =>
      obtain ⟨-, hsome, rfl⟩ := sent?_eq_some_iff.1 hsent
      rw [Option.map_some, Option.toList_some, List.singleton_append, List.flatMap_cons]
      constructor
      · refine List.nodup_append.2 ⟨nodup_wanted demangler call, hnodup, ?_⟩
        rintro symbol hsymbol other hother rfl
        obtain ⟨batch, hbatch, hin⟩ := List.mem_flatMap.1 hother
        exact (hlater batch hbatch symbol hin).1 hsymbol
      · rw [List.forall_mem_cons]
        refine ⟨⟨hsome, fun symbol hsymbol => (mem_wanted_iff.1 hsymbol).2.2⟩, ?_⟩
        intro batch hbatch
        refine ⟨(hrest batch hbatch).1, fun symbol hsymbol => ?_⟩
        exact ⟨((hrest batch hbatch).2 symbol hsymbol).1, (hlater batch hbatch symbol hsymbol).2⟩

theorem countP_live (hbefore : demangler.trace.countP isSurrender = demangler.givenUp.toNat)
    (calls : List (Toolbox × Call)) :
    (demangler.live calls).trace.countP isSurrender = (demangler.live calls).givenUp.toNat := by
  induction calls generalizing demangler with
  | nil => exact hbefore
  | cons first rest ih => exact ih ((asks_perform demangler first.1 first.2).countP_eq hbefore)

theorem Asks.givenUp_mono {symbols : List String} {after : Demangler}
    (h : Asks tools demangler symbols after) (hgivenUp : demangler.givenUp = true) :
    after.givenUp = true := by
  cases h with
  | nothing => exact hgivenUp
  | givenUp => exact hgivenUp
  | answered _ hstill => exact absurd hgivenUp (by simp [hstill])
  | failed => rfl

/-- Without tools nothing is sent, and nothing more is found out. -/
theorem live_of_givenUp (hgivenUp : demangler.givenUp = true) (calls : List (Toolbox × Call))
    (symbol : String) :
    (demangler.live calls).givenUp = true ∧ demangler.batches calls = [] ∧
      ((demangler.live calls).cache.lookup symbol).join =
        (demangler.cache.lookup symbol).join := by
  induction calls generalizing demangler with
  | nil => exact ⟨hgivenUp, rfl, rfl⟩
  | cons first rest ih =>
    obtain ⟨tools, call⟩ := first
    have hasks := asks_perform demangler tools call
    obtain ⟨hstill, hbatches, hlookup⟩ := ih (hasks.givenUp_mono hgivenUp)
    have hsent : demangler.sent? call = none := by simp [sent?, hgivenUp]
    refine ⟨hstill, ?_, ?_⟩
    · rw [batches, hbatches, hsent]
      rfl
    · rw [live_cons, hlookup]
      exact hasks.join_lookup_eq (fun other hother => (mem_wanted_iff.1 hother).2.2.2)
        (.inl hgivenUp) symbol

/-! ### Answers in the course of a life -/

theorem fst_demangle_live (hitanium : call.abi = .itanium) (hsymbol : symbol ∈ call.symbols)
    (after : List (Toolbox × Call)) (soon later : Toolbox) :
    (((demangler.perform tools call).2.live after).demangle later symbol .itanium).1 =
      ((demangler.perform tools call).2.demangle soon symbol .itanium).1 := by
  by_cases hmangled : isItaniumSymbol symbol = true
  · have hknown : (demangler.perform tools call).2.knows symbol = true :=
      knows_perform hitanium hsymbol hmangled
    have hkept := lookup_live hknown after
    have hstill : ((demangler.perform tools call).2.live after).knows symbol = true := by
      rw [knows, hkept]
      exact hknown
    rw [fst_demangle_of_knows hstill hmangled, fst_demangle_of_knows hknown hmangled, hkept]
  · rw [fst_demangle, fst_demangle, if_neg (fun h => hmangled h.2), if_neg (fun h => hmangled h.2)]

theorem fst_demangle_of_givenUp (hgivenUp : demangler.givenUp = true)
    (hnone : (demangler.cache.lookup symbol).join = none) (tools : Toolbox) (abi : Abi) :
    (demangler.demangle tools symbol abi).1 = none := by
  obtain ⟨-, -, hlookup⟩ := live_of_givenUp hgivenUp [(tools, .demangle symbol abi)] symbol
  rw [fst_demangle]
  split
  · exact hlookup.trans hnone
  · rfl

/-- What holds of a life of calls, whatever the tools do from one call to the next. An answer that was
given or found out ahead is the answer ever after. Only symbols of the convention are sent, none of them
twice, and the tools are run on what is sent and on nothing else, in their order up to the first usable
one. A batch that no tool can handle is the last one, and a symbol without an answer by then has none
ever after; giving up is logged once at most. Calls about other symbols or by other conventions are
answered with nothing and leave no trace. -/
structure IsSafe (commands : List String) (calls : List (Toolbox × Call)) : Prop where
  answered : ∀ before tools call after, calls = before ++ (tools, call) :: after →
    call.abi = .itanium → ∀ symbol ∈ call.symbols, ∀ soon later,
      (((fresh commands).live calls).demangle later symbol .itanium).1 =
          ((((fresh commands).live before).perform tools call).2.demangle soon symbol .itanium).1 ∧
        (call = .demangle symbol .itanium →
          (((fresh commands).live calls).demangle later symbol .itanium).1 =
            (((fresh commands).live before).perform tools call).1)
  nodup : (((fresh commands).batches calls).flatMap Prod.snd).Nodup
  mangled : ∀ batch ∈ (fresh commands).batches calls, batch.2 ≠ [] ∧
    ∀ symbol ∈ batch.2, isItaniumSymbol symbol = true
  spawned : spawns ((fresh commands).live calls).trace =
    ((fresh commands).batches calls).flatMap (runs commands)
  ended : ∀ before tools call after, calls = before ++ (tools, call) :: after →
    ∀ batch, ((fresh commands).live before).sent? call = some batch →
      (∀ command ∈ commands, isUsable tools batch command = false) →
      spawns ((fresh commands).live calls).trace =
          spawns (((fresh commands).live before).perform tools call).2.trace ∧
        ∀ symbol, ((fresh commands).live before).knows symbol = false → ∀ later abi,
          (((fresh commands).live calls).demangle later symbol abi).1 = none
  surrendered : ((fresh commands).live calls).trace.countP isSurrender ≤ 1
  others : ∀ before tools call after, calls = before ++ (tools, call) :: after →
    (call.abi ≠ .itanium ∨ ∀ symbol ∈ call.symbols, isItaniumSymbol symbol = false) →
    ((fresh commands).live before).perform tools call = (none, (fresh commands).live before)

theorem isSafe_live (commands : List String) (calls : List (Toolbox × Call)) :
    IsSafe commands calls where
  answered := by
    rintro before tools call after rfl hitanium symbol hsymbol soon later
    rw [live_append, live_cons]
    refine ⟨fst_demangle_live hitanium hsymbol after soon later, ?_⟩
    rintro rfl
    rw [fst_demangle_live hitanium hsymbol after soon later, fst_perform_demangle _ tools soon]
  nodup := (batches_spec (fresh commands) calls).1
  mangled := by
    intro batch hbatch
    obtain ⟨hsome, hsymbols⟩ := (batches_spec (fresh commands) calls).2 batch hbatch
    exact ⟨hsome, fun symbol hsymbol => (hsymbols symbol hsymbol).1⟩
  spawned := spawns_live (fresh commands) calls
  ended := by
    rintro before tools call after rfl batch hsent hunusable
    have hcommands : ((fresh commands).live before).commands = commands :=
      commands_live (fresh commands) before
    have hgivenUp : (((fresh commands).live before).perform tools call).2.givenUp = true :=
      givenUp_perform hsent (by rw [hcommands]; exact hunusable)
    rw [live_append, live_cons]
    constructor
    · rw [spawns_live, (live_of_givenUp hgivenUp after "").2.1]
      exact List.append_nil _
    · intro symbol hopen later abi
      obtain ⟨hstill, -, hlookup⟩ := live_of_givenUp hgivenUp after symbol
      obtain ⟨-, -, rfl⟩ := sent?_eq_some_iff.1 hsent
      have hfound : ((((fresh commands).live before).perform tools call).2.cache.lookup symbol).join =
          (((fresh commands).live before).cache.lookup symbol).join :=
        (asks_perform _ tools call).join_lookup_eq
          (fun other hother => (mem_wanted_iff.1 hother).2.2.2)
          (.inr (by rw [hcommands]; exact hunusable)) symbol
      have hnone : ((fresh commands).live before).cache.lookup symbol = none := by
        simpa [knows] using hopen
      refine fst_demangle_of_givenUp hstill ?_ later abi
      rw [hlookup, hfound, hnone]
      rfl
  surrendered := by
    have hnone : (fresh commands).trace.countP isSurrender = (fresh commands).givenUp.toNat := rfl
    rw [countP_live hnone calls]
    exact Bool.toNat_le _
  others := by
    rintro before tools call after - h
    exact perform_eq_of_other _ tools h

def sampleTools : Toolbox := .ofList [("c++filt", .lookingUp [("_ZA", "a")] 0)]

/-- A life in which the tool goes missing for the second call and is back for the third. -/
def sampleCalls : List (Toolbox × Call) :=
  [(sampleTools, .askAhead ["_ZA", "main", "_ZA"] .itanium), (.empty, .demangle "_ZB" .itanium),
    (sampleTools, .demangle "_ZC" .itanium)]

theorem isSafe_live_sample :
    spawns ((fresh ["c++filt"]).live sampleCalls).trace =
        [⟨"c++filt", "_ZA\n"⟩, ⟨"c++filt", "_ZB\n"⟩] ∧
      (∀ later, (((fresh ["c++filt"]).live sampleCalls).demangle later "_ZA" .itanium).1 =
        some "a") ∧
      ∀ later, (((fresh ["c++filt"]).live sampleCalls).demangle later "_ZC" .itanium).1 = none := by
  have hsafe := isSafe_live ["c++filt"] sampleCalls
  obtain ⟨hspawns, hnone⟩ := hsafe.ended
    [(sampleTools, .askAhead ["_ZA", "main", "_ZA"] .itanium)] .empty (.demangle "_ZB" .itanium)
    [(sampleTools, .demangle "_ZC" .itanium)] rfl ["_ZB"] (by decide +kernel)
    (by simp only [List.forall_mem_singleton]; decide +kernel)
  refine ⟨?_, fun later => ?_, fun later => hnone "_ZC" (by decide +kernel) later _⟩
  · rw [hspawns]
    decide +kernel
  · obtain ⟨hanswer, -⟩ := hsafe.answered [] sampleTools
      (.askAhead ["_ZA", "main", "_ZA"] .itanium) _ rfl rfl "_ZA" (List.mem_cons_self ..)
      sampleTools later
    rw [hanswer]
    decide +kernel

end Demangler

end CallGraph
