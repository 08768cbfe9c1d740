/-!
# Numbers

Exchanged documents hold binary64 numbers. A number here is the exact rational that such a format
holds, or one of its two infinities, so that comparing and adding are exact and only `nearest`
rounds. There is one zero, and no value for the outcome of a failed conversion: those are `none`.
-/

namespace CallGraph

/-- A number of a document: an exact value, or an infinity that an overflow left behind. -/
inductive Number
  | finite (value : Rat)
  | infinite (negative : Bool)
  deriving DecidableEq, Repr, Inhabited

namespace Number

def ofInt (n : Int) : Number := .finite n

def ofNat (n : Nat) : Number := .finite n

def less : Number → Number → Bool
  | .finite a, .finite b => a < b
  | .finite _, .infinite negative => !negative
  | .infinite negative, .finite _ => negative
  | .infinite a, .infinite b => a && !b

/-- The integer that the number is, if it is one. -/
def toInt? : Number → Option Int
  | .finite value => if value.den = 1 then some value.num else none
  | .infinite _ => none

/-- The first items of a list, as many as there are natural numbers below the number. -/
def takeBelow {α : Type} (limit : Number) (items : List α) : List α :=
  match limit with
  | .finite value => items.take value.ceil.toNat
  | .infinite negative => if negative then [] else items

/-- Whether the number is neither infinite nor has a fraction. -/
def isInteger (n : Number) : Bool :=
  n.toInt?.isSome

/-- The largest integer up to which every integer has a binary64 number of its own. -/
def maxSafe : Nat := Nat.pow 2 53 - 1

theorem toInt?_ofInt (n : Int) : (ofInt n).toInt? = some n := by
  simp [ofInt, toInt?]

theorem toInt?_eq_some {n : Number} {i : Int} (h : n.toInt? = some i) : n = ofInt i := by
  cases n with
  | finite value =>
    simp only [toInt?] at h
    split at h
    · next hden =>
      cases h
      exact congrArg Number.finite (Rat.ext rfl hden)
    · simp at h
  | infinite _ => simp [toInt?] at h

end Number

end CallGraph
