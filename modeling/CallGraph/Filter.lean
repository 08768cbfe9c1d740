import CallGraph.Text.Pattern

/-!
# The application-code filter

A graph shows the application and leaves out frameworks, run-time libraries and compiler-generated
code. A name is rejected when it starts with an excluded namespace, or else when it contains an
excluded marker; the first entry that matches is the reason.
-/

namespace CallGraph

/-- The excluded namespaces and markers. -/
structure NameFilter where
  prefixes : List String
  substrings : List String
  deriving DecidableEq, Repr, Inhabited

/-- How an entry of the filter met a name: at its start or anywhere in it. -/
inductive Reason
  | atStart
  | inside
  deriving DecidableEq, Repr

/-- The filter's word on a name. -/
inductive Verdict
  | accepted
  | rejected (reason : Reason) (entry : String)
  deriving DecidableEq, Repr

namespace Verdict

def isAccepted : Verdict → Bool
  | .accepted => true
  | .rejected _ _ => false

end Verdict

namespace NameFilter

def startsWith (name entry : String) : Bool :=
  entry.toList.isPrefixOf name.toList

def contains (name entry : String) : Bool :=
  Text.occursIn entry.toList name.toList

def verdict (filter : NameFilter) (name : String) : Verdict :=
  match filter.prefixes.find? (startsWith name) with
  | some entry => .rejected .atStart entry
  | none =>
    match filter.substrings.find? (contains name) with
    | some entry => .rejected .inside entry
    | none => .accepted

/-- Whether the name is one of the application. -/
def accepts (filter : NameFilter) (name : String) : Bool :=
  (filter.verdict name).isAccepted

/-- A name stays exactly when no entry meets it. -/
theorem accepts_iff (filter : NameFilter) (name : String) :
    filter.accepts name = true ↔
      (∀ entry ∈ filter.prefixes, startsWith name entry = false) ∧
        ∀ entry ∈ filter.substrings, contains name entry = false := by
  unfold accepts verdict
  split
  · next entry found =>
    have := List.find?_some found
    have := List.mem_of_find?_eq_some found
    simp only [Verdict.isAccepted, Bool.false_eq_true, false_iff, not_and]
    intro h
    simp_all
  · next missing =>
    split
    · next entry found =>
      have := List.find?_some found
      have := List.mem_of_find?_eq_some found
      simp only [Verdict.isAccepted, Bool.false_eq_true, false_iff, not_and]
      intro _ h
      simp_all
    · next missing' => simp_all [Verdict.isAccepted]

end NameFilter

end CallGraph
