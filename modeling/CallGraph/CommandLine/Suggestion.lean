import CallGraph.Text.CodePoint

/-!
# Suggestions for mistyped words

A word that is not known is likely a known one with a few slips: a letter too many, too few or
another one, or two neighbours swapped. The known words with the fewest slips are suggested, unless
there are more than three or the words are unlike.
-/

namespace CallGraph.CommandLine

/-- The table of the slips between initial parts of two words, row by row; a row belongs to an
initial part of the first word. Of each row the entries so far are kept in reverse. -/
def slipRow (above twoAbove : List Nat) (letter : Nat) (before? : Option Nat) (second : List Nat)
    (number : Nat) : List Nat :=
  let row := (List.range second.length).foldl (fun (row : Array Nat) j =>
    let other := second[j]?.getD 0
    let cost := if letter = other then 0 else 1
    let plain := min (min ((above[j + 1]?.getD 0) + 1) ((row[j]?.getD 0) + 1))
      ((above[j]?.getD 0) + cost)
    let swapped :=
      match before?, j with
      | some before, k + 1 =>
        if second[k]? = some letter && before = other then (twoAbove[k]?.getD 0) + 1 else plain
      | _, _ => plain
    row.push (min plain swapped)) #[number]
  row.toList

/-- The last row of the table of slips. -/
def slipRows (second : List Nat) : List Nat → Option Nat → Nat → List Nat → List Nat → List Nat
  | [], _, _, above, _ => above
  | letter :: rest, before?, number, above, twoAbove =>
    slipRows second rest (some letter) (number + 1)
      (slipRow above twoAbove letter before? second number) above

def maxSlips : Nat := 3

/-- The number of slips between two words. Words whose lengths are too far apart count as having
nothing in common. -/
def slips (first second : List Nat) : Nat :=
  if first.length + maxSlips < second.length || second.length + maxSlips < first.length then
    max first.length second.length
  else
    (slipRows second first none 1 (List.range (second.length + 1)) []).getLast?.getD 0

/-- The slips between a word and a known one, if the two are alike enough: more than two fifths of
the longer one must be right. -/
def likeness? (word known : String) : Option Nat :=
  let a := word.toList.flatMap Text.codeUnits
  let b := known.toList.flatMap Text.codeUnits
  let length := max a.length b.length
  let distance := slips a b
  if 1 < b.length && distance ≤ maxSlips && 2 * length < 5 * (length - distance) then some distance
  else none

/-- The known words that are most like a word, in the order of their code points. -/
def similar (word : String) (known : List String) : List String :=
  let rated := known.eraseDups.filterMap fun k => (likeness? word k).map fun d => (k, d)
  let best := rated.foldl (fun best (_, d) => min best d) maxSlips
  Text.sortByCodePoint ((rated.filter fun (_, d) => d = best).map Prod.fst)

/-- The line that suggests words, behind a line end, or nothing. -/
def suggestion (mark : String) (words : List String) : String :=
  match words.map fun word => mark ++ word with
  | [] => ""
  | [one] => "\n(Did you mean " ++ one ++ "?)"
  | several => "\n(Did you mean one of " ++ ", ".intercalate several ++ "?)"

/-- The suggestion for a word among known ones. Long options are compared without their hyphens. -/
def suggest (word : String) (known : List String) : String :=
  if "--".toList.isPrefixOf word.toList then
    let bare (option : String) : String := String.ofList (option.toList.drop 2)
    suggestion "--" (similar (bare word) (known.map bare))
  else suggestion "" (similar word known)

end CallGraph.CommandLine
