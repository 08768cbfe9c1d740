import CallGraph.Json.Basic
import CallGraph.Schema.Problem

/-!
# Checking documents

Checking goes on after the first issue, so that all issues are told together. A value of the wrong
type leaves nothing to go on with, and nothing is checked that needs it; a value of the right type
that fails a test is flawed but usable, and further tests run on it. A document is accepted when
there is a value and no issue.
-/

namespace CallGraph.Schema

/-- What a check leaves: a value to go on with, unless the type was wrong, and the issues. -/
structure Checked (α : Type) where
  value? : Option α
  issues : List Issue
  deriving Repr

/-- A check of a member that may be absent. -/
abbrev Check (α : Type) := Option Json → Checked α

namespace Checked

variable {α β : Type}

/-- A value without flaws. -/
def ok (value : α) : Checked α := ⟨some value, []⟩

/-- No value, for one reason. -/
def refuse (problem : Problem) : Checked α := ⟨none, [⟨[], problem⟩]⟩

/-- A usable value with the problems it has. -/
def flawed (value : α) (problems : List Problem) : Checked α :=
  ⟨some value, problems.map fun problem => ⟨[], problem⟩⟩

instance : Functor Checked where
  map f c := ⟨c.value?.map f, c.issues⟩

/-- Two checks side by side: the issues of both, and a value if both have one. -/
instance : Seq Checked where
  seq f rest :=
    let c := rest ()
    ⟨f.value?.bind fun g => c.value?.map g, f.issues ++ c.issues⟩

/-- Moves the issues below a key or an index. -/
def under (step : String) (c : Checked α) : Checked α :=
  { c with issues := c.issues.map fun issue => { issue with path := step :: issue.path } }

/-- A further test on the value, if there is one. -/
def refine (test : α → List Issue) (c : Checked α) : Checked α :=
  match c.value? with
  | some value => { c with issues := c.issues ++ test value }
  | none => c

/-- All checks of a list side by side. -/
def all : List (Checked α) → Checked (List α)
  | [] => ok []
  | c :: rest => List.cons <$> c <*> all rest

/-- The accepted value, or the issues. -/
def toExcept (c : Checked α) : Except (List Issue) α :=
  match c.value?, c.issues with
  | some value, [] => .ok value
  | _, issues => .error issues

end Checked

/-- The word for the type of a value. -/
def typeName : Json → String
  | .null => "null"
  | .bool _ => "boolean"
  | .number _ => "number"
  | .string _ => "string"
  | .array _ => "array"
  | .object _ => "object"

namespace Check

variable {α : Type}

/-- The answer to a value of another type than the expected one, or to none at all. -/
def mismatch (expected : String) : Check α
  | none => .refuse .required
  | some value => .refuse (.wrongType expected (typeName value))

def string : Check String
  | some (.string text) => .ok text
  | other => mismatch "string" other

/-- A string that is not empty; `words` ask for one. -/
def nonEmptyString (words : String) : Check String := fun value =>
  (string value).refine fun text => if text = "" then [⟨[], .empty words⟩] else []

def bool : Check Bool
  | some (.bool value) => .ok value
  | other => mismatch "boolean" other

def number : Check Number
  | some (.number value) => .ok value
  | other => mismatch "number" other

/-- The problems that a number has as a non-negative integer. -/
def countProblems (value : Number) : List Problem :=
  (if value.isInteger then [] else [.notInteger]) ++
    (if value.less (.ofNat 0) then [.negative] else [])

/-- The problems that a number has as a positive integer. -/
def limitProblems (value : Number) : List Problem :=
  (if value.isInteger then [] else [.notInteger]) ++
    (if (Number.ofNat 0).less value then [] else [.notPositive])

/-- One of several words. -/
def oneOf (options : List String) (read : String → Option α) : Check α
  | some (.string text) =>
    match read text with
    | some value => .ok value
    | none => .refuse (.notOneOf options text)
  | other => mismatch (Problem.choices options) other

/-- A value that may be absent. -/
def optional (check : Check α) : Check (Option α)
  | none => .ok none
  | some value => some <$> check (some value)

/-- A value that may be `null`. -/
def nullable (check : Check α) : Check (Option α)
  | some .null => .ok none
  | value => some <$> check value

/-- A value that stands for another when absent. -/
def withDefault (default : α) (check : Check α) : Check α
  | none => .ok default
  | value => check value

/-- An array, item by item. -/
def array (check : Check α) : Check (List α)
  | some (.array items) =>
    .all (items.zipIdx.map fun (item, index) => (check (some item)).under (toString index))
  | other => mismatch "array" other

/-- An object, by its members. -/
def object (check : Json.Members → Checked α) : Check α
  | some (.object members) => check members
  | other => mismatch "object" other

/-- The member of an object under a key. -/
def field (key : String) (check : Check α) (members : Json.Members) : Checked α :=
  (check (Json.Members.get? key members)).under key

/-- An object whose keys are data, entry by entry. A key `__proto__` is checked and then dropped. -/
def entries (check : Check α) : Check (List (String × α))
  | some (.object members) =>
    let checked := members.map fun (key, value) =>
      (fun entry => (key, entry)) <$> (check (some value)).under key
    (fun pairs => pairs.filter fun (key, _) => key != "__proto__") <$> .all checked
  | other => mismatch "object" other

/-- The issue of an object that has other keys than the known ones. -/
def unknownKeys (known : List String) (members : Json.Members) : List Issue :=
  let unknown := (members.map Prod.fst).filter fun key => !known.contains key
  if unknown.isEmpty then [] else [⟨[], .unrecognizedKeys unknown⟩]

end Check

end CallGraph.Schema
