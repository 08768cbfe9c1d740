import CallGraph.Json.Basic
import CallGraph.Number.Decimal

/-!
# Plain text of JSON values

Where a value takes the place of a message it is shown without quotes: a string as it is, an array
by its items with commas between them, in which `null` shows as nothing, and any object alike. An
object with a member `toString` has put that in the place of its text and has none, and nor has an
array that holds such an object.
-/

namespace CallGraph.Json

mutual

/-- The value as plain text, if it has one. -/
def displayChars? : Json → Option (List Char)
  | .null => some "null".toList
  | .bool true => some "true".toList
  | .bool false => some "false".toList
  | .number value => some value.toText
  | .string value => some value.toList
  | .array items => displayItems? items
  | .object members =>
    if Members.has "toString" members then none else some "[object Object]".toList

/-- The items with commas between them. -/
def displayItems? : List Json → Option (List Char)
  | [] => some []
  | [item] => displayItem? item
  | item :: items => do
    let first ← displayItem? item
    let rest ← displayItems? items
    return first ++ ',' :: rest

/-- An item of an array; `null` shows as nothing. -/
def displayItem? : Json → Option (List Char)
  | .null => some []
  | item => displayChars? item

end

def display? (value : Json) : Option String :=
  value.displayChars?.map String.ofList

end CallGraph.Json
