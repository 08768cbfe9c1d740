import CallGraph.Number.Rounding

/-!
# Hexadecimal digits

Addresses are written and read in base 16. Digits above nine are written in lower case and read in
either. As 16 is a power of two, every binary64 number has a finite expansion, which is written in
full.
-/

namespace CallGraph

def hexDigit? (c : Char) : Option Nat :=
  if '0' ≤ c && c ≤ '9' then some (c.toNat - '0'.toNat)
  else if 'a' ≤ c && c ≤ 'f' then some (c.toNat - 'a'.toNat + 10)
  else if 'A' ≤ c && c ≤ 'F' then some (c.toNat - 'A'.toNat + 10)
  else none

/-- The number that digits of a base stand for, behind those read already; `none` when a character
is no digit of the base. -/
def digitsValue? (base : Nat) : Nat → List Char → Option Nat
  | value, [] => some value
  | value, c :: rest =>
    match hexDigit? c with
    | some digit => if digit < base then digitsValue? base (base * value + digit) rest else none
    | none => none

def hexDigits (n : Nat) : List Char :=
  Nat.toDigits 16 n

namespace Number

/-- The hexadecimal digits of a fraction below one, at most `fuel` of them. -/
def hexFraction : Nat → Rat → List Char
  | 0, _ => []
  | fuel + 1, fraction =>
    if fraction = 0 then []
    else
      let scaled := fraction * 16
      let digit := scaled.floor
      hexDigits digit.toNat ++ hexFraction fuel (scaled - digit)

/-- The hexadecimal text of a number. -/
def hexText : Number → List Char
  | .finite value =>
    let magnitude := if value < 0 then -value else value
    let whole := magnitude.floor.toNat
    let fraction := hexFraction (magnitude.den.log2 + 1) (magnitude - whole)
    (if value < 0 then ['-'] else []) ++ hexDigits whole ++
      (if fraction.isEmpty then [] else '.' :: fraction)
  | .infinite negative => if negative then "-Infinity".toList else "Infinity".toList

end Number

end CallGraph
