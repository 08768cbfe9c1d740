/-!
# What can be wrong with a document

Input that does not have the expected form is answered by a list of issues, each with the place in
the document and the problem there. A problem is a cause; its wording and its kind follow from it.
-/

namespace CallGraph.Schema

/-- What is wrong with a value. -/
inductive Problem
  | required
  | wrongType (expected received : String)
  | notInteger
  | negative
  | notPositive
  /-- A text or list without content, with the words that ask for some. -/
  | empty (words : String)
  | notOneOf (options : List String) (received : String)
  | unrecognizedKeys (keys : List String)
  | notHexAddress
  | invalidInput
  | unsafeAddress
  | endNotAfterStart
  /-- A second function at an address, with the index of the first. -/
  | duplicateStart (address : String) (first : Nat)
  deriving DecidableEq, Repr

namespace Problem

def quoted (word : String) : String :=
  "'" ++ word ++ "'"

/-- The options of a choice. -/
def choices (options : List String) : String :=
  " | ".intercalate (options.map quoted)

def message : Problem → String
  | .required => "Required"
  | .wrongType expected received => "Expected " ++ expected ++ ", received " ++ received
  | .notInteger => "Expected integer, received float"
  | .negative => "Number must be greater than or equal to 0"
  | .notPositive => "Number must be greater than 0"
  | .empty words => words
  | .notOneOf options received =>
    "Invalid enum value. Expected " ++ choices options ++ ", received " ++ quoted received
  | .unrecognizedKeys keys =>
    "Unrecognized key(s) in object: " ++ ", ".intercalate (keys.map quoted)
  | .notHexAddress => "Expected a 0x-prefixed hex address"
  | .invalidInput => "Invalid input"
  | .unsafeAddress => "Address does not fit in a safe integer"
  | .endNotAfterStart => "Function end must be greater than start"
  | .duplicateStart address first =>
    "Duplicate function start " ++ address ++ " (first at functions." ++ toString first ++ ")"

/-- The kind of a problem, as a word. -/
def code : Problem → String
  | .required => "invalid_type"
  | .wrongType _ _ => "invalid_type"
  | .notInteger => "invalid_type"
  | .negative => "too_small"
  | .notPositive => "too_small"
  | .empty _ => "too_small"
  | .notOneOf _ _ => "invalid_enum_value"
  | .unrecognizedKeys _ => "unrecognized_keys"
  | .notHexAddress => "invalid_string"
  | .invalidInput => "invalid_union"
  | .unsafeAddress => "too_big"
  | .endNotAfterStart => "custom"
  | .duplicateStart _ _ => "custom"

end Problem

/-- A problem and the keys and indices that lead to it. -/
structure Issue where
  path : List String
  problem : Problem
  deriving DecidableEq, Repr

namespace Issue

/-- The place, with points between its steps. -/
def place (issue : Issue) : String :=
  ".".intercalate issue.path

/-- The issue on one line. -/
def describe (issue : Issue) : String :=
  (if issue.place = "" then "<root>" else issue.place) ++ ": " ++ issue.problem.message

end Issue

end CallGraph.Schema
