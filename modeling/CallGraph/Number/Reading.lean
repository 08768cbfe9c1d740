import CallGraph.Number.Decimal
import CallGraph.Number.Hex
import CallGraph.Text.Blank

/-!
# Numbers in free text

A number that a person types is read more freely than one in JSON: blanks around it, a sign, a point
without digits on one side of it, `Infinity`, and binary, octal and hexadecimal digits behind a
marker. Nothing at all counts as zero.
-/

namespace CallGraph.Number

/-- Reads an unsigned decimal numeral that makes up the whole text. -/
def ofDecimalText? (negative : Bool) (text : List Char) : Option Number :=
  let (whole, rest) := Decimal.digitRun text
  let (fraction, rest) :=
    match rest with
    | '.' :: tail => Decimal.digitRun tail
    | tail => ([], tail)
  if whole.isEmpty && fraction.isEmpty then none
  else
    match Decimal.exponent? rest with
    | some (exponent, []) => some (Decimal.ofParts negative whole fraction exponent).toNumber
    | _ => none

/-- Reads digits of a base that make up the whole text; there is at least one. -/
def ofDigits? (base : Nat) (text : List Char) : Option Number :=
  if text.isEmpty then none else (digitsValue? base 0 text).map fun n => nearestQuotient n 1

/-- Reads an unsigned or signed decimal numeral or `Infinity`. -/
def ofSigned? (text : List Char) : Option Number :=
  let (negative, text) :=
    match text with
    | '-' :: rest => (true, rest)
    | '+' :: rest => (false, rest)
    | rest => (false, rest)
  if text = "Infinity".toList then some (.infinite negative) else ofDecimalText? negative text

/-- The number that a text spells, or `none` where it spells none. -/
def ofText? (text : List Char) : Option Number :=
  match Text.trim text with
  | [] => some (.finite 0)
  | '0' :: 'x' :: digits => ofDigits? 16 digits
  | '0' :: 'X' :: digits => ofDigits? 16 digits
  | '0' :: 'o' :: digits => ofDigits? 8 digits
  | '0' :: 'O' :: digits => ofDigits? 8 digits
  | '0' :: 'b' :: digits => ofDigits? 2 digits
  | '0' :: 'B' :: digits => ofDigits? 2 digits
  | other => ofSigned? other

end CallGraph.Number
