import CallGraph.Engine
import CallGraph.Number.Reading
import CallGraph.Schema.Checked
import CallGraph.Text.CodePoint

/-!
# Addresses in snapshots

An exporter writes an address as a number or as a text of hexadecimal digits behind `0x`. Both stand
for an integer from zero to `2 ^ 53 - 1`. What fails the test is still compared with other
addresses, so that all issues come out together: a number by its value, a text as it stands.
-/

namespace CallGraph

/-- The text of an address. -/
def addressText (value : Number) : String :=
  String.ofList ('0' :: 'x' :: value.hexText)

def Address.toText (address : Address) : String :=
  addressText (.ofInt address)

/-- The number that a text behind `0x` spells, if it is a hexadecimal address. -/
def hexAddress? : List Char → Option Number
  | '0' :: 'x' :: digits => Number.ofDigits? 16 digits
  | _ => none

/-- What stands where an address should: a number, or a text that is no hexadecimal address. -/
inductive Location
  | number (value : Number)
  | text (raw : String)
  deriving DecidableEq, Repr

namespace Location

open Schema

def describe : Location → String
  | .number value => addressText value
  | .text raw => "0x" ++ raw

/-- The number that a location counts as in a comparison with a number. -/
def toNumber? : Location → Option Number
  | .number value => some value
  | .text raw => Number.ofText? raw.toList

/-- Whether the second location lies behind the first. Two texts are compared by code units; a text
and a number are compared as numbers, and not at all if the text spells none. -/
def isBehind (first second : Location) : Bool :=
  match first, second with
  | .text a, .text b => Text.compareByCodeUnit a b == .lt
  | a, b =>
    match a.toNumber?, b.toNumber? with
    | some x, some y => x.less y
    | _, _ => false

/-- The address of a location that passed the check. -/
def toAddress : Location → Address
  | .number value => value.toInt?.getD 0
  | .text _ => 0

/-- The test that the number of an address is small enough to be exact. -/
def inRange (value : Number) : Checked Location :=
  .flawed (.number value)
    (if (Number.ofNat Number.maxSafe).less value then [.unsafeAddress] else [])

def check : Check Location
  | some (.number value) =>
    match Check.countProblems value with
    | [] => inRange value
    | problems => .flawed (.number value) problems
  | some (.string raw) =>
    match hexAddress? raw.toList with
    | some value => inRange value
    | none => .flawed (.text raw) [.notHexAddress]
  | _ => .refuse .invalidInput

end Location

end CallGraph
