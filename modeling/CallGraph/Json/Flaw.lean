import CallGraph.Text.CodePoint

/-!
# What is wrong with a text that is no JSON

Reading stops at the first character that can not stand where it stands, or at the end of a text
that is not complete. A failure keeps what was wrong and all that was left to read, so that the
place is known from the text alone: how far it is from the beginning, in UTF-16 code units, and in
which line and column it is.
-/

namespace CallGraph.Json

/-- What is wrong at the place where reading stops. -/
inductive Flaw
  | unexpected
  | noDigits
  | noFraction
  | noExponent
  | openString
  | controlCharacter
  | badEscape
  | badUnicodeEscape
  | noNameOrEnd
  | noName
  | noColon
  | noCommaOrBrace
  | noCommaOrBracket
  | trailing
  deriving DecidableEq, Repr

/-- What is wrong, and the text from there on. -/
structure Failure where
  flaw : Flaw
  rest : List Char
  deriving DecidableEq, Repr

/-- A value and the text behind it, or why there is none. -/
abbrev Parsed (α : Type) := Except Failure (α × List Char)

/-- Goes on with the value that was read. -/
def Parsed.map {α β : Type} (f : α → β) : Parsed α → Parsed β
  | .ok (value, rest) => .ok (f value, rest)
  | .error failure => .error failure

namespace Flaw

/-- The words for a flaw. What is unexpected is told by its first character: a digit or a sign
begins a number, and a quote a string. -/
def words (rest : List Char) : Flaw → String
  | .unexpected => if rest.head? = some '"' then "Unexpected string in JSON"
      else "Unexpected number in JSON"
  | .noDigits => "No number after minus sign in JSON"
  | .noFraction => "Unterminated fractional number in JSON"
  | .noExponent => "Exponent part is missing a number in JSON"
  | .openString => "Unterminated string in JSON"
  | .controlCharacter => "Bad control character in string literal in JSON"
  | .badEscape => "Bad escaped character in JSON"
  | .badUnicodeEscape => "Bad Unicode escape in JSON"
  | .noNameOrEnd => "Expected property name or '\x7d' in JSON"
  | .noName => "Expected double-quoted property name in JSON"
  | .noColon => "Expected ':' after property name in JSON"
  | .noCommaOrBrace => "Expected ',' or '\x7d' after property value in JSON"
  | .noCommaOrBracket => "Expected ',' or ']' after array element in JSON"
  | .trailing => "Unexpected non-whitespace character after JSON"

end Flaw

namespace Failure

/-- The characters between two offsets in a text, which are counted in UTF-16 code units from the
offset of its first character. -/
def between (low high : Nat) : Nat → List Char → List Char
  | _, [] => []
  | start, c :: rest =>
    let stop := start + (Text.codeUnits c).length
    if low ≤ start && stop ≤ high then c :: between low high stop rest
    else between low high stop rest

/-- The line and the column behind a text that begins in the given ones. -/
def lineAndColumn (line column : Nat) : List Char → Nat × Nat
  | [] => (line, column)
  | '\r' :: '\n' :: rest => lineAndColumn (line + 1) 1 rest
  | c :: rest =>
    if c = '\n' || c = '\r' then lineAndColumn (line + 1) 1 rest
    else lineAndColumn line (column + (Text.codeUnits c).length) rest

/-- The place where reading stopped. -/
def place (text : List Char) (failure : Failure) : String :=
  let before := text.take (text.length - failure.rest.length)
  let (line, column) := lineAndColumn 1 1 before
  s!"at position {Text.unitCount before} (line {line} column {column})"

/-- How many code units are shown in front of an unexpected character, and from it on. -/
def window : Nat := 10

/-- The text around an unexpected character: all of a short text, and else a window with dots where
it leaves something out. -/
def excerpt (text : List Char) (failure : Failure) : String :=
  let size := Text.unitCount text
  let position := size - Text.unitCount failure.rest
  let shown (low high : Nat) : String := "\"" ++ String.ofList (between low high 0 text) ++ "\""
  if size ≤ 2 * window then shown 0 size
  else if position < window then shown 0 (position + window) ++ "..."
  else if position < size - window then
    "..." ++ shown (position - window) (position + window) ++ "..."
  else "..." ++ shown (position - window) size

/-- The words for a failure to read a text. -/
def message (text : List Char) (failure : Failure) : String :=
  let located := failure.flaw.words failure.rest ++ " " ++ failure.place text
  match failure.flaw, failure.rest with
  | .unexpected, [] => "Unexpected end of JSON input"
  | .unexpected, c :: _ =>
    if c.isDigit || c = '-' || c = '"' then located
    else
      "Unexpected token '" ++ String.singleton c ++ "', " ++ failure.excerpt text ++
        " is not valid JSON"
  | _, _ => located

end Failure

end CallGraph.Json
