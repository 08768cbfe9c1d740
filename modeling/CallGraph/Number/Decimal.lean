import CallGraph.Number.Rounding

/-!
# Decimal numerals

A numeral is a run of digits with a scale, and stands for the binary64 number nearest to it. In the
other direction a number is written with the fewest digits that read back as the same number;
among those of equal length the nearest one is taken. Positional notation is used from `1e-6` up to
below `1e21`, and exponent notation outside.
-/

namespace CallGraph

/-- The numeral `digits * 10 ^ scale`, with its sign. -/
structure Decimal where
  negative : Bool
  digits : Nat
  scale : Int
  deriving DecidableEq, Repr

def decimalDigits (n : Nat) : List Char :=
  Nat.toDigits 10 n

namespace Decimal

def magnitude (digits : Nat) (scale : Int) : Number :=
  if 0 ≤ scale then Number.nearestQuotient (digits * Nat.pow 10 scale.toNat) 1
  else Number.nearestQuotient digits (Nat.pow 10 (-scale).toNat)

/-- The number that a numeral stands for. A numeral far outside the format's range is settled by its
length alone: from `1e400` on it is infinite, and below `1e-400` it is zero. -/
def toNumber (d : Decimal) : Number :=
  let order : Int := (decimalDigits d.digits).length + d.scale
  let value : Number :=
    if d.digits = 0 then .finite 0
    else if 400 < order then .infinite false
    else if order < -400 then .finite 0
    else magnitude d.digits d.scale
  if d.negative then value.neg else value

def digitRun (text : List Char) : List Char × List Char :=
  (text.takeWhile Char.isDigit, text.dropWhile Char.isDigit)

/-- Reads an optional exponent, `e` or `E` with an optional sign and at least one digit. -/
def exponent? : List Char → Option (Int × List Char)
  | c :: rest =>
    if c = 'e' || c = 'E' then
      let (negative, digits) :=
        match rest with
        | '-' :: tail => (true, tail)
        | '+' :: tail => (false, tail)
        | tail => (false, tail)
      match digitRun digits with
      | ([], _) => none
      | (run, after) =>
        let power : Int := Nat.ofDigitChars 10 run 0
        some (if negative then -power else power, after)
    else some (0, c :: rest)
  | [] => some (0, [])

/-- The numeral with an integer part, a fraction and an exponent. -/
def ofParts (negative : Bool) (whole fraction : List Char) (exponent : Int) : Decimal :=
  ⟨negative, Nat.ofDigitChars 10 (whole ++ fraction) 0, exponent - fraction.length⟩

end Decimal

namespace Number

/-- Numerator and denominator of a quotient divided by `10 ^ exponent`. -/
def scaleDownTen (num den : Nat) (exponent : Int) : Nat × Nat :=
  if 0 ≤ exponent then (num, den * Nat.pow 10 exponent.toNat)
  else (num * Nat.pow 10 (-exponent).toNat, den)

/-- The exponent of the largest power of ten that is at most a positive quotient. -/
def floorLog10 (num den : Nat) : Int :=
  let guess : Int := ((decimalDigits num).length : Int) - ((decimalDigits den).length : Int)
  let (n, d) := scaleDownTen num den guess
  if d ≤ n then guess else guess - 1

/-- The multiple of `10 ^ exponent` that reads back as the positive value, if its neighbours on
that grid do: of two that do, the nearer, and of two equally near the even one. -/
def readingBack? (value : Rat) (exponent : Int) : Option Nat :=
  let (n, d) := scaleDownTen value.num.natAbs value.den exponent
  let low := n / d
  let reads (digits : Nat) : Bool := Decimal.magnitude digits exponent == .finite value
  match reads low, reads (low + 1) with
  | true, true => some (roundHalfEven n d)
  | true, false => some low
  | false, true => some (low + 1)
  | false, false => none

/-- Drops the zeros at the end of the digits and raises the exponent by as many. -/
def trimZeros : Nat → Nat → Int → Nat × Int
  | 0, digits, exponent => (digits, exponent)
  | fuel + 1, digits, exponent =>
    if digits % 10 = 0 && digits != 0 then trimZeros fuel (digits / 10) (exponent + 1)
    else (digits, exponent)

/-- All digits of a value whose denominator is a power of two, with the exponent of the last one. -/
def allDigits (value : Rat) : Nat × Int :=
  let places := value.den.log2
  (value.num.natAbs * Nat.pow 5 places, -places)

/-- The fewest digits that read back as the positive value, with the exponent of the last one.
Seventeen always suffice for a binary64 number; were it otherwise, all digits would be taken. -/
def shortest (value : Rat) : Nat × Int :=
  let order := floorLog10 value.num.natAbs value.den
  let found := (List.range 17).findSome? fun (k : Nat) =>
    let exponent : Int := order - k
    (readingBack? value exponent).map fun digits => (digits, exponent)
  match found with
  | some (digits, exponent) => trimZeros (decimalDigits digits).length digits exponent
  | none => allDigits value

/-- Lays out digits whose last one has the given exponent. -/
def layout (digits : Nat) (exponent : Int) : List Char :=
  let ds := decimalDigits digits
  let point : Int := ds.length + exponent
  if 0 ≤ exponent && point ≤ 21 then
    ds ++ List.replicate exponent.toNat '0'
  else if 0 < point && point ≤ 21 then
    ds.take point.toNat ++ '.' :: ds.drop point.toNat
  else if -6 < point && point ≤ 0 then
    '0' :: '.' :: (List.replicate (-point).toNat '0' ++ ds)
  else
    let power := point - 1
    let sign := if power < 0 then '-' else '+'
    let fraction := if ds.length = 1 then [] else '.' :: ds.drop 1
    ds.take 1 ++ fraction ++ 'e' :: sign :: decimalDigits power.natAbs

/-- The text of a non-negative value. An integer that is not above `maxSafe` is written with all its
digits, as no shorter numeral reads back as the same number. -/
def magnitudeText (value : Rat) : List Char :=
  if value.den = 1 && value.num.natAbs ≤ maxSafe then decimalDigits value.num.natAbs
  else
    let (digits, exponent) := shortest value
    layout digits exponent

def toText : Number → List Char
  | .finite value =>
    if value < 0 then '-' :: magnitudeText (-value) else magnitudeText value
  | .infinite negative => if negative then "-Infinity".toList else "Infinity".toList

end Number

end CallGraph
