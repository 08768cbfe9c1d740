import CallGraph.Number.Basic

/-!
# JSON values

Snapshots, graph documents, configuration files and log records are JSON. The members of an object
keep an order that readers can see: keys that are array indices come first, in ascending order, and
all others follow in the order in which they first appeared. Giving a present key a new value keeps
its place.
-/

namespace CallGraph

/-- A JSON value; the members of an object are in document order. -/
inductive Json
  | null
  | bool (value : Bool)
  | number (value : Number)
  | string (value : String)
  | array (items : List Json)
  | object (members : List (String × Json))
  deriving Inhabited, Repr, BEq

namespace Json

/-- The members of an object. -/
abbrev Members := List (String × Json)

def int (n : Int) : Json := .number (.ofInt n)

def nat (n : Nat) : Json := .number (.ofNat n)

def strings (items : List String) : Json := .array (items.map .string)

def string? : Option String → Json
  | some value => .string value
  | none => .null

/-- The array index that a key spells: a canonical decimal numeral of at most `2 ^ 32 - 2`. -/
def arrayIndex? (key : String) : Option Nat :=
  let digits := key.toList
  if digits.isEmpty || !digits.all Char.isDigit then none
  else if digits.head? = some '0' && 1 < digits.length then none
  else
    let index := Nat.ofDigitChars 10 digits 0
    if index ≤ 4294967294 then some index else none

/-- Whether a new key goes in front of a present one: an index goes in front of greater indices and
of all keys that are none. -/
def goesBefore (new present : String) : Bool :=
  match arrayIndex? new, arrayIndex? present with
  | some a, some b => a < b
  | some _, none => true
  | none, _ => false

namespace Members

def get? (key : String) : Members → Option Json
  | [] => none
  | (k, v) :: rest => if k = key then some v else get? key rest

def has (key : String) (members : Members) : Bool :=
  (get? key members).isSome

/-- Gives a present key a new value, in place. -/
def replace (key : String) (value : Json) : Members → Members
  | [] => []
  | (k, v) :: rest => if k = key then (k, value) :: rest else (k, v) :: replace key value rest

/-- Puts a new key where the order of members wants it. -/
def place (key : String) (value : Json) : Members → Members
  | [] => [(key, value)]
  | (k, v) :: rest =>
    if goesBefore key k then (key, value) :: (k, v) :: rest else (k, v) :: place key value rest

/-- Sets the value of a key. -/
def insert (members : Members) (key : String) (value : Json) : Members :=
  if has key members then replace key value members else place key value members

/-- The members of the first object overridden and extended by those of the second, one by one. -/
def merge (base extra : Members) : Members :=
  extra.foldl (fun members (key, value) => members.insert key value) base

/-- The object that a list of members, in the order of writing, denotes. -/
def ofList (pairs : List (String × Json)) : Members :=
  merge [] pairs

end Members

def ofMembers (pairs : List (String × Json)) : Json :=
  .object (Members.ofList pairs)

def get? (key : String) : Json → Option Json
  | .object members => Members.get? key members
  | _ => none

/-- Whether the value passes as true: `null`, `false`, zero and the empty string do not. -/
def isTruthy : Json → Bool
  | .null => false
  | .bool value => value
  | .number value => value != .finite 0
  | .string value => value != ""
  | .array _ => true
  | .object _ => true

end Json

end CallGraph
