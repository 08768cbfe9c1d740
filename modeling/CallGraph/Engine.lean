import CallGraph.Abi
import CallGraph.Fault

/-!
# Analysis engines

An engine answers queries about one analysed binary: its functions, the references to them and the
text behind mangled symbols. Any query may fail. Only demangling may change something, as a tool
behind it may be run and its answers kept; that state goes through the query.
-/

namespace CallGraph

/-- An address of the analysed binary. -/
abbrev Address := Int

/-- A computation that may fail and reads and writes a state of type `σ`; the state that a failed
computation leaves behind stays. -/
abbrev Query (σ : Type) := ExceptT Fault (StateM σ)

/-- Answers about one binary. -/
structure Engine (σ : Type) where
  /-- The start addresses of all functions. -/
  functions : Except Fault (List Address)
  isCode : Address → Except Fault Bool
  /-- The symbol of the function that starts at the address. -/
  rawSymbol : Address → Except Fault (Option String)
  /-- The origins of all references to the address, from code and from data. -/
  referencesTo : Address → Except Fault (List Address)
  /-- The symbol of the function around the address. -/
  enclosingSymbol : Address → Except Fault (Option String)
  demangle : String → Abi → Query σ (Option String)

namespace Query

variable {σ : Type}

/-- A query that keeps the state. -/
def ofExcept {α : Type} (answer : Except Fault α) : Query σ α :=
  ExceptT.mk (pure answer)

/-- The answer and the state that the query leaves. -/
def runFrom {α : Type} (query : Query σ α) (state : σ) : Except Fault α × σ :=
  (ExceptT.run query).run state

end Query

end CallGraph
