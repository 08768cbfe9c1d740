import CallGraph.Json.Display

/-!
# Faults

A query against an analysis database may fail, with a named error or with a bare value. A fault is
logged and reported under a text; where in the program an error was raised is left out. A value that
has no text can not be told; trying to is a fault of its own. So is a text that gets too long.
-/

namespace CallGraph

/-- Why a query failed: an error, a value with a text, which may leave no trace in a log, or a value
that has no text. -/
inductive Fault
  | error (name message : String)
  | value (text : String) (leavesTrace : Bool)
  | untellable
  deriving DecidableEq, Inhabited, Repr

namespace Fault

/-- The fault of a bare value, or of none. A value that does not pass as true leaves no trace. -/
def ofValue : Option Json → Fault
  | none => .value "undefined" false
  | some thrown =>
    match thrown.display? with
    | some text => .value text thrown.isTruthy
    | none => .untellable

/-- What comes of telling a value that has no text. -/
def withoutText : Fault :=
  .error "TypeError" "Cannot convert object to primitive value"

/-- What comes of a text with more code units than a text can have. -/
def tooLong : Fault :=
  .error "RangeError" "Invalid string length"

/-- Whether the fault can be told. -/
def isTellable : Fault → Bool
  | .untellable => false
  | _ => true

/-- The text of a fault, which is empty where it has none. -/
def message : Fault → String
  | .error _ text => text
  | .value text _ => text
  | .untellable => ""

/-- What a fault leaves in a log, if anything. -/
def trace? : Fault → Option Json
  | .error name text => some (.object [("name", .string name), ("message", .string text)])
  | .value text leavesTrace =>
    if leavesTrace then some (.object [("message", .string text)]) else none
  | .untellable => none

/-- What a fault leaves in a log, or the fault of telling it. -/
def told (fault : Fault) : Except Fault (Option Json) :=
  if fault.isTellable then .ok fault.trace? else .error withoutText

/-- The fault as the field `err` of a log record, if it leaves a trace. -/
def fields (fault : Fault) : Json.Members :=
  match fault.trace? with
  | some trace => [("err", trace)]
  | none => []

end Fault

end CallGraph
