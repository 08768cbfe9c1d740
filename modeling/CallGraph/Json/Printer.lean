import CallGraph.Json.Basic
import CallGraph.Number.Decimal

/-!
# Printing JSON

There are two layouts of one value: on one line without blanks, as in a log, and with each member
and item on a line of its own, two columns further in than what holds it. Only quotes, backslashes
and control characters below U+0020 are escaped; all else is written as it is. How long a value is
when it is printed is known without printing it.
-/

namespace CallGraph.Json

/-- A character as it stands inside a quoted string. -/
def escape (c : Char) : List Char :=
  if c = '"' then ['\\', '"']
  else if c = '\\' then ['\\', '\\']
  else if c = '\n' then ['\\', 'n']
  else if c = '\r' then ['\\', 'r']
  else if c = '\t' then ['\\', 't']
  else if c = '\x08' then ['\\', 'b']
  else if c = '\x0c' then ['\\', 'f']
  else if c.toNat < 0x20 then
    ['\\', 'u', '0', '0', Nat.digitChar (c.toNat / 16), Nat.digitChar (c.toNat % 16)]
  else [c]

def quote (text : String) : List Char :=
  '"' :: (text.toList.flatMap escape ++ ['"'])

/-- A number; JSON has no infinities and writes `null` for them. -/
def numberText : Number → List Char
  | .infinite _ => "null".toList
  | .finite value => Number.toText (.finite value)

mutual

/-- The value on one line. -/
def compactChars : Json → List Char
  | .null => "null".toList
  | .bool true => "true".toList
  | .bool false => "false".toList
  | .number value => numberText value
  | .string value => quote value
  | .array [] => "[]".toList
  | .array (item :: items) => '[' :: (compactChars item ++ compactItems items)
  | .object [] => ['\x7b', '\x7d']
  | .object ((key, value) :: members) =>
    '\x7b' :: (quote key ++ ':' :: (compactChars value ++ compactMembers members))

/-- The items after the first one, with the closing bracket. -/
def compactItems : List Json → List Char
  | [] => [']']
  | item :: items => ',' :: (compactChars item ++ compactItems items)

/-- The members after the first one, with the closing brace. -/
def compactMembers : List (String × Json) → List Char
  | [] => ['\x7d']
  | (key, value) :: members =>
    ',' :: (quote key ++ ':' :: (compactChars value ++ compactMembers members))

end

/-- A line end and the margin of the next line. -/
def newline (margin : Nat) : List Char :=
  '\n' :: List.replicate margin ' '

mutual

/-- The value over several lines, the first of which starts within a line of the given margin. -/
def prettyChars (margin : Nat) : Json → List Char
  | .null => "null".toList
  | .bool true => "true".toList
  | .bool false => "false".toList
  | .number value => numberText value
  | .string value => quote value
  | .array [] => "[]".toList
  | .array (item :: items) =>
    '[' :: (newline (margin + 2) ++ prettyChars (margin + 2) item ++ prettyItems margin items)
  | .object [] => ['\x7b', '\x7d']
  | .object ((key, value) :: members) =>
    '\x7b' :: (newline (margin + 2) ++ quote key ++ ": ".toList ++ prettyChars (margin + 2) value ++
      prettyMembers margin members)

/-- The items after the first one, with the closing bracket at the margin. -/
def prettyItems (margin : Nat) : List Json → List Char
  | [] => newline margin ++ [']']
  | item :: items =>
    ',' :: (newline (margin + 2) ++ prettyChars (margin + 2) item ++ prettyItems margin items)

/-- The members after the first one, with the closing brace at the margin. -/
def prettyMembers (margin : Nat) : List (String × Json) → List Char
  | [] => newline margin ++ ['\x7d']
  | (key, value) :: members =>
    ',' :: (newline (margin + 2) ++ quote key ++ ": ".toList ++ prettyChars (margin + 2) value ++
      prettyMembers margin members)

end

def compact (value : Json) : String :=
  String.ofList value.compactChars

/-- The value over several lines, indented by two columns a level. -/
def pretty (value : Json) : String :=
  String.ofList (value.prettyChars 0)

/-! ### The length of printed values -/

/-- The number of code units of a character as it stands inside a quoted string. -/
def escapedSize (c : Char) : Nat :=
  if c = '"' || c = '\\' || c = '\n' || c = '\r' || c = '\t' || c = '\x08' || c = '\x0c' then 2
  else if c.toNat < 0x20 then 6
  else if c.toNat < 0x10000 then 1
  else 2

def quotedSize (text : String) : Nat :=
  text.toList.foldl (fun size c => size + escapedSize c) 2

mutual

/-- The number of code units of a value over several lines, told without its text. -/
def prettySize (margin : Nat) : Json → Nat
  | .null => 4
  | .bool true => 4
  | .bool false => 5
  | .number value => (numberText value).length
  | .string value => quotedSize value
  | .array [] => 2
  | .array (item :: items) =>
    margin + 4 + prettySize (margin + 2) item + prettyItemsSize margin items
  | .object [] => 2
  | .object ((key, value) :: members) =>
    margin + 6 + quotedSize key + prettySize (margin + 2) value + prettyMembersSize margin members

def prettyItemsSize (margin : Nat) : List Json → Nat
  | [] => margin + 2
  | item :: items =>
    margin + 4 + prettySize (margin + 2) item + prettyItemsSize margin items

def prettyMembersSize (margin : Nat) : List (String × Json) → Nat
  | [] => margin + 2
  | (key, value) :: members =>
    margin + 6 + quotedSize key + prettySize (margin + 2) value + prettyMembersSize margin members

end

end CallGraph.Json
