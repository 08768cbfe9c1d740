import CallGraph.Json.Basic
import CallGraph.Json.Flaw
import CallGraph.Number.Decimal
import CallGraph.Number.Hex

/-!
# Reading JSON

The reader is strict: no comments, no commas at the end, no control characters in strings, no
leading zeros. It goes through a text once from the left, and stops where the text can not go on as
JSON. Texts are sequences of Unicode characters: half a surrogate pair, which can only be written as
an escape, is none and reads as U+FFFD. Strings with such a half in them are left out.
-/

namespace CallGraph.Json

/-- Drops the blanks that may stand between tokens. -/
def skipBlanks (text : List Char) : List Char :=
  text.dropWhile fun c => c == ' ' || c == '\n' || c == '\t' || c == '\r'

/-- What stands behind the mark of an exponent and its sign. -/
def exponentDigits : List Char → List Char
  | _ :: '-' :: rest => rest
  | _ :: '+' :: rest => rest
  | text => text.drop 1

/-- Reads the exponent of a number whose other digits are known. -/
def parseExponent (negative : Bool) (whole fraction rest : List Char) : Parsed Number :=
  match Decimal.exponent? rest with
  | some (exponent, rest) =>
    .ok ((Decimal.ofParts negative whole fraction exponent).toNumber, rest)
  | none => .error ⟨.noExponent, exponentDigits rest⟩

/-- Reads a number behind its sign. -/
def parseMagnitude (negative : Bool) (text : List Char) : Parsed Number :=
  match Decimal.digitRun text with
  | ([], rest) => .error ⟨if negative then .noDigits else .unexpected, rest⟩
  | ('0' :: digit :: more, rest) => .error ⟨.unexpected, digit :: more ++ rest⟩
  | (whole, '.' :: rest) =>
    match Decimal.digitRun rest with
    | ([], rest) => .error ⟨.noFraction, rest⟩
    | (fraction, rest) => parseExponent negative whole fraction rest
  | (whole, rest) => parseExponent negative whole [] rest

/-- Reads a number. -/
def parseNumber : List Char → Parsed Number
  | '-' :: rest => parseMagnitude true rest
  | text => parseMagnitude false text

/-- The value of four hexadecimal digits. -/
def codeUnit? (a b c d : Char) : Option Nat :=
  digitsValue? 16 0 [a, b, c, d]

/-- The character that a single-letter escape stands for. -/
def unescape? : Char → Option Char
  | '"' => some '"'
  | '\\' => some '\\'
  | '/' => some '/'
  | 'b' => some '\x08'
  | 'f' => some '\x0c'
  | 'n' => some '\n'
  | 'r' => some '\r'
  | 't' => some '\t'
  | _ => none

/-- The character of a code unit that is no surrogate, or U+FFFD. -/
def ofCodeUnit (unit : Nat) : Char :=
  if 0xD800 ≤ unit && unit ≤ 0xDFFF then '\uFFFD' else Char.ofNat unit

/-- The character of a surrogate pair, if the two units are one. -/
def ofSurrogates? (high low : Nat) : Option Char :=
  if 0xD800 ≤ high && high < 0xDC00 && 0xDC00 ≤ low && low < 0xE000 then
    some (Char.ofNat (0x10000 + (high - 0xD800) * 0x400 + (low - 0xDC00)))
  else none

/-- Drops the hexadecimal digits at the start of the text. -/
def skipHex (text : List Char) : List Char :=
  text.dropWhile fun c => (hexDigit? c).isSome

/-- A piece of a string: a character, or a code unit that was written by its number. -/
inductive Piece
  | char (c : Char)
  | unit (n : Nat)
  deriving DecidableEq, Repr

/-- Reads the inside of a string, piece by piece, and its closing quote. -/
def parsePieces : List Char → Parsed (List Piece)
  | [] => .error ⟨.openString, []⟩
  | '"' :: rest => .ok ([], rest)
  | '\\' :: 'u' :: a :: b :: c :: d :: rest =>
    match codeUnit? a b c d with
    | some unit => (parsePieces rest).map (.unit unit :: ·)
    | none => .error ⟨.badUnicodeEscape, skipHex (a :: b :: c :: d :: rest)⟩
  | ['\\'] => .error ⟨.openString, []⟩
  | '\\' :: c :: rest =>
    match unescape? c with
    | some char => (parsePieces rest).map (.char char :: ·)
    | none =>
      .error (if c = 'u' then ⟨.badUnicodeEscape, skipHex rest⟩ else ⟨.badEscape, c :: rest⟩)
  | c :: rest =>
    if c.toNat < 0x20 then .error ⟨.controlCharacter, c :: rest⟩
    else (parsePieces rest).map (.char c :: ·)

/-- The characters of a string. Two code units in a row that are a surrogate pair make up one. -/
def joinPieces : List Piece → List Char
  | [] => []
  | .char c :: rest => c :: joinPieces rest
  | .unit high :: .unit low :: rest =>
    match ofSurrogates? high low with
    | some char => char :: joinPieces rest
    | none => ofCodeUnit high :: joinPieces (.unit low :: rest)
  | .unit unit :: rest => ofCodeUnit unit :: joinPieces rest

/-- Reads the inside of a string and its closing quote, and joins its pieces. -/
def parseString (text : List Char) : Parsed (List Char) :=
  (parsePieces text).map joinPieces

/-- Reads a word that stands for a value. -/
def parseWord (value : Json) : List Char → List Char → Parsed Json
  | [], text => .ok (value, text)
  | _ :: _, [] => .error ⟨.unexpected, []⟩
  | c :: rest, d :: text =>
    if c = d then parseWord value rest text else .error ⟨.unexpected, d :: text⟩

mutual

/-- Reads a value that starts at the first character; `fuel` bounds the values and separators read
on the way. -/
def parseValue : Nat → List Char → Parsed Json
  | 0, text => .error ⟨.unexpected, text⟩
  | fuel + 1, text =>
    match text with
    | '\x7b' :: rest =>
      match skipBlanks rest with
      | '\x7d' :: rest => .ok (.object [], rest)
      | rest => (parseMembers fuel .noNameOrEnd rest).map ofMembers
    | '[' :: rest =>
      match skipBlanks rest with
      | ']' :: rest => .ok (.array [], rest)
      | rest => (parseItems fuel rest).map .array
    | '"' :: rest => (parseString rest).map fun chars => .string (.ofList chars)
    | 't' :: _ => parseWord (.bool true) "true".toList text
    | 'f' :: _ => parseWord (.bool false) "false".toList text
    | 'n' :: _ => parseWord .null "null".toList text
    | _ => (parseNumber text).map .number

/-- Reads items, of which there is at least one, and the closing bracket. -/
def parseItems : Nat → List Char → Parsed (List Json)
  | 0, text => .error ⟨.unexpected, text⟩
  | fuel + 1, text =>
    match parseValue fuel (skipBlanks text) with
    | .error failure => .error failure
    | .ok (item, rest) =>
      match skipBlanks rest with
      | ']' :: rest => .ok ([item], rest)
      | ',' :: rest => (parseItems fuel rest).map (item :: ·)
      | rest => .error ⟨.noCommaOrBracket, rest⟩

/-- Reads members, of which there is at least one, and the closing brace; where no name follows, the
text has the given flaw. -/
def parseMembers : Nat → Flaw → List Char → Parsed (List (String × Json))
  | 0, flaw, text => .error ⟨flaw, text⟩
  | fuel + 1, flaw, text =>
    match skipBlanks text with
    | '"' :: rest =>
      match parseString rest with
      | .error failure => .error failure
      | .ok (key, rest) =>
        match skipBlanks rest with
        | ':' :: rest =>
          match parseValue fuel (skipBlanks rest) with
          | .error failure => .error failure
          | .ok (value, rest) =>
            match skipBlanks rest with
            | '\x7d' :: rest => .ok ([(.ofList key, value)], rest)
            | ',' :: rest => (parseMembers fuel .noName rest).map ((.ofList key, value) :: ·)
            | rest => .error ⟨.noCommaOrBrace, rest⟩
        | rest => .error ⟨.noColon, rest⟩
    | rest => .error ⟨flaw, rest⟩

end

/-- Reads a text that holds one value and blanks around it. -/
def parseChars (text : List Char) : Except Failure Json :=
  match parseValue (2 * text.length + 2) (skipBlanks text) with
  | .error failure => .error failure
  | .ok (value, rest) =>
    match skipBlanks rest with
    | [] => .ok value
    | rest => .error ⟨.trailing, rest⟩

def parse (text : String) : Except Failure Json :=
  parseChars text.toList

/-- Reads the text of a file, which may start with a byte order mark. -/
def parseFile? (text : String) : Option Json :=
  match text.toList with
  | '\uFEFF' :: rest => (parseChars rest).toOption
  | chars => (parseChars chars).toOption

end CallGraph.Json
