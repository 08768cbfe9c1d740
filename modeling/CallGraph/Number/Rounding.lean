import CallGraph.Number.Basic

/-!
# Rounding to binary64

`nearest` gives the binary64 number next to an exact value: 53 significant bits, exponents from
-1074, and of two equally near numbers the one with an even last bit. What is too large for the
format becomes infinite.
-/

namespace CallGraph.Number

/-- The integer nearest to a quotient; a half goes to the even neighbour. -/
def roundHalfEven (num den : Nat) : Nat :=
  let quotient := num / den
  let rest := 2 * (num % den)
  if rest < den then quotient
  else if den < rest then quotient + 1
  else quotient + quotient % 2

/-- Numerator and denominator of a quotient divided by `2 ^ exponent`. -/
def scaleDown (num den : Nat) (exponent : Int) : Nat × Nat :=
  if 0 ≤ exponent then (num, den * Nat.pow 2 exponent.toNat)
  else (num * Nat.pow 2 (-exponent).toNat, den)

/-- The exponent of the largest power of two that is at most a positive quotient. -/
def floorLog2 (num den : Nat) : Int :=
  let guess : Int := (num.log2 : Int) - (den.log2 : Int)
  let (n, d) := scaleDown num den guess
  if d ≤ n then guess else guess - 1

/-- The exponent of the last bit that the format keeps of a positive quotient. -/
def lastBitExponent (num den : Nat) : Int :=
  max (floorLog2 num den - 52) (-1074)

/-- The least power of two that the format can not hold. -/
def overflowBound : Rat := (Nat.pow 2 1024 : Rat)

/-- `significand * 2 ^ exponent` as an exact value. -/
def dyadic (significand : Nat) (exponent : Int) : Rat :=
  if 0 ≤ exponent then ((significand * Nat.pow 2 exponent.toNat : Nat) : Rat)
  else mkRat significand (Nat.pow 2 (-exponent).toNat)

/-- The nearest binary64 number of a non-negative quotient. -/
def nearestQuotient (num den : Nat) : Number :=
  if num = 0 then .finite 0
  else
    let exponent := lastBitExponent num den
    let (n, d) := scaleDown num den exponent
    let value := dyadic (roundHalfEven n d) exponent
    if value < overflowBound then .finite value else .infinite false

def neg : Number → Number
  | .finite value => .finite (-value)
  | .infinite negative => .infinite (!negative)

/-- The binary64 number nearest to an exact value. -/
def nearest (value : Rat) : Number :=
  let magnitude := nearestQuotient value.num.natAbs value.den
  if value < 0 then magnitude.neg else magnitude

/-- The rounded sum of two numbers. The first of them that is infinite is the sum. -/
def add : Number → Number → Number
  | .finite a, .finite b => nearest (a + b)
  | .finite _, .infinite negative => .infinite negative
  | .infinite negative, _ => .infinite negative

end CallGraph.Number
