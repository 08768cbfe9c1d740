import CallGraph.Proofs.Graph.Running

/-!
# What a build may do to its state

A build reaches its state through the demangler and through the events that it tells, and it gives
the demangler only symbols that some function has. So what every single answer keeps, the whole build
keeps: `outcome_guards` leads from the queries of an engine to the work on one function, and
`buildFrom_guards` from there to the end of the build, which is a success when every fault that can
come up can be told.
-/

namespace CallGraph

namespace Query

variable {σ α β : Type} {kept : σ → Prop} {allowed : Fault → Prop}

/-- From a kept state the query ends in a kept state, and if it fails, then by an allowed fault. -/
def Guards (kept : σ → Prop) (allowed : Fault → Prop) (query : Query σ α) : Prop :=
  ∀ state, kept state → kept (query.runFrom state).2 ∧
    ∀ fault, (query.runFrom state).1 = .error fault → allowed fault

theorem guards_pure (value : α) : (pure value : Query σ α).Guards kept allowed := by
  intro state hstate
  refine ⟨hstate, fun fault hfault => ?_⟩
  rw [runFrom_pure] at hfault
  cases hfault

theorem Guards.bind {query : Query σ α} {next : α → Query σ β}
    (hquery : query.Guards kept allowed) (hnext : ∀ value, (next value).Guards kept allowed) :
    (query >>= next).Guards kept allowed := by
  intro state hstate
  obtain ⟨hkept, hallowed⟩ := hquery state hstate
  rw [runFrom_bind]
  rcases hrun : query.runFrom state with ⟨fault | value, after⟩
  · rw [hrun] at hkept hallowed
    refine ⟨hkept, fun other hother => ?_⟩
    cases hother
    exact hallowed fault rfl
  · rw [hrun] at hkept
    exact hnext value after hkept

theorem guards_ofExcept_bind {answer : Except Fault α} {next : α → Query σ β}
    (hfault : ∀ fault, answer = .error fault → allowed fault)
    (hnext : ∀ value, answer = .ok value → (next value).Guards kept allowed) :
    (ofExcept answer >>= next).Guards kept allowed := by
  intro state hstate
  rw [runFrom_bind, runFrom_ofExcept]
  cases hanswer : answer with
  | error fault =>
    refine ⟨hstate, fun other hother => ?_⟩
    cases hother
    exact hfault fault hanswer
  | ok value => exact hnext value hanswer state hstate

end Query

variable {σ : Type}

namespace Engine

def Names (engine : Engine σ) (symbol : String) : Prop :=
  symbol ≠ "" ∧ ∃ address, engine.rawSymbol address = .ok (some symbol) ∨
    engine.enclosingSymbol address = .ok (some symbol)

/-- All queries that a build makes of the engine keep what is to be kept and fail by allowed faults
only. -/
structure Guards (engine : Engine σ) (abi : Abi) (kept : σ → Prop) (allowed : Fault → Prop) :
    Prop where
  isCode : ∀ address fault, engine.isCode address = .error fault → allowed fault
  rawSymbol : ∀ address fault, engine.rawSymbol address = .error fault → allowed fault
  referencesTo : ∀ address fault, engine.referencesTo address = .error fault → allowed fault
  enclosingSymbol : ∀ address fault, engine.enclosingSymbol address = .error fault → allowed fault
  demangle : ∀ symbol, engine.Names symbol → (engine.demangle symbol abi).Guards kept allowed

end Engine

namespace Graph

variable {engine : Engine σ} {filter : NameFilter} {abi : Abi} {kept : σ → Prop}
  {allowed : Fault → Prop}

/-! ### One function -/

theorem canonicalName?_guards (hengine : engine.Guards abi kept allowed) {symbol : String}
    (hsymbol : engine.Names symbol) : (canonicalName? engine abi symbol).Guards kept allowed :=
  (hengine.demangle symbol hsymbol).bind fun _ => Query.guards_pure _

theorem callerName?_guards (hengine : engine.Guards abi kept allowed) (origin : Address) :
    (callerName? engine abi origin).Guards kept allowed := by
  refine Query.guards_ofExcept_bind (hengine.isCode origin) fun code _ => ?_
  cases code with
  | false => exact Query.guards_pure none
  | true =>
    refine Query.guards_ofExcept_bind (hengine.enclosingSymbol origin) fun symbol? hsymbol => ?_
    split
    · next symbol hnamed =>
      obtain ⟨rfl, hnonempty⟩ := Text.nonEmpty_eq_some_iff.1 hnamed
      exact canonicalName?_guards hengine ⟨hnonempty, origin, .inr hsymbol⟩
    · exact Query.guards_pure none

theorem callerNames_guards (hengine : engine.Guards abi kept allowed) (origins : List Address) :
    (callerNames engine abi origins).Guards kept allowed := by
  induction origins with
  | nil => exact Query.guards_pure []
  | cons origin rest ih =>
    refine (callerName?_guards hengine origin).bind fun name => ?_
    exact ih.bind fun names => Query.guards_pure _

theorem outcome_guards (hengine : engine.Guards abi kept allowed) (filter : NameFilter)
    (address : Address) :
    (outcome engine filter abi address).Guards kept allowed := by
  refine Query.guards_ofExcept_bind (hengine.isCode address) fun code _ => ?_
  cases code with
  | false => exact Query.guards_pure _
  | true =>
    refine Query.guards_ofExcept_bind (hengine.rawSymbol address) fun symbol? hsymbol => ?_
    split
    · exact Query.guards_pure _
    · next symbol hnamed =>
      obtain ⟨rfl, hnonempty⟩ := Text.nonEmpty_eq_some_iff.1 hnamed
      split
      · exact Query.guards_pure _
      · have hname := canonicalName?_guards hengine ⟨hnonempty, address, .inl hsymbol⟩
        refine hname.bind fun name? => ?_
        split
        · exact Query.guards_pure _
        · split
          · have hcallers : (callers engine abi address).Guards kept allowed :=
              Query.guards_ofExcept_bind (hengine.referencesTo address) fun origins _ =>
                callerNames_guards hengine origins
            exact hcallers.bind fun collected => Query.guards_pure _
          · exact Query.guards_pure _

/-! ### Whole builds -/

variable {tell : BuildEvent → σ → σ}

/-- Where every fault that is allowed can be told, a build succeeds and keeps what every query and
every event keep. -/
theorem buildFrom_guards (hengine : engine.Guards abi kept allowed)
    (hallowed : ∀ fault, allowed fault → fault.isTellable = true)
    (htell : ∀ event state, kept state → kept (tell event state)) (addresses : List Address)
    (progress : Progress) {state : σ} (hstate : kept state) :
    ∃ last final, buildFrom engine filter abi tell addresses progress state = (.ok last, final) ∧
      kept final := by
  induction addresses generalizing progress state with
  | nil => exact ⟨progress, state, rfl, hstate⟩
  | cons address rest ih =>
    obtain ⟨hturn, hfaults⟩ := outcome_guards hengine filter address state hstate
    have hnext := takeIn_kept htell progress address hturn
    obtain ⟨last, final, hrest, hfinal⟩ := ih _ hnext
    refine ⟨last, final, buildFrom_cons_eq_ok_iff.2 ⟨?_, hrest⟩, hfinal⟩
    cases hanswer : ((outcome engine filter abi address).runFrom state).1 with
    | ok outcome => rfl
    | error fault => exact hallowed fault (hfaults fault hanswer)

end Graph

end CallGraph
