/-!
# Orders on texts

Texts are kept in UTF-16 code units, of which a character outside the basic plane takes up two, a
surrogate pair; a text has a limited number of them. Callers are listed by code point: the comparison goes along the units of both texts
from one code point to the next. A text that stands where an address should be is compared by the
units themselves, so that such a character sorts before U+E000.
-/

namespace CallGraph.Text

/-- Lexicographic order of the numbers in two lists; a proper initial part is less. -/
def compareLex : List Nat → List Nat → Ordering
  | [], [] => .eq
  | [], _ :: _ => .lt
  | _ :: _, [] => .gt
  | a :: as, b :: bs => if a < b then .lt else if b < a then .gt else compareLex as bs

/-- The UTF-16 code units of one character. -/
def codeUnits (c : Char) : List Nat :=
  let n := c.toNat
  if n < 0x10000 then [n]
  else [0xD800 + (n - 0x10000) / 0x400, 0xDC00 + (n - 0x10000) % 0x400]

/-- The UTF-16 code units of a text. -/
def units (text : String) : List Nat :=
  text.toList.flatMap codeUnits

/-- The number of UTF-16 code units of some characters. -/
def unitCount (text : List Char) : Nat :=
  (text.flatMap codeUnits).length

/-- The most code units that a text can have. -/
def maxUnits : Nat := Nat.pow 2 29 - 24

/-- Whether some characters are few enough to be a text. -/
def fits (text : String) : Bool :=
  unitCount text.toList ≤ maxUnits

def isSurrogatePair (high low : Nat) : Bool :=
  0xD800 ≤ high && high < 0xDC00 && 0xDC00 ≤ low && low < 0xE000

/-- The code point that begins with a code unit in front of others: that of a surrogate pair, or
else the unit itself. -/
def codePointAt (unit : Nat) : List Nat → Nat
  | [] => unit
  | next :: _ =>
    if isSurrogatePair unit next then 0x10000 + (unit - 0xD800) * 0x400 + (next - 0xDC00) else unit

/-- The order of two sequences of code units by the first code points that differ, and by their
lengths where there are none; `skip` units belong to a code point that was the same in both. -/
def compareFrom : Nat → List Nat → List Nat → Ordering
  | _, [], [] => .eq
  | _, [], _ :: _ => .lt
  | _, _ :: _, [] => .gt
  | skip + 1, _ :: as, _ :: bs => compareFrom skip as bs
  | 0, a :: as, b :: bs =>
    let point := codePointAt a as
    let other := codePointAt b bs
    if point < other then .lt
    else if other < point then .gt
    else compareFrom (if 0xFFFF < point then 1 else 0) as bs

/-- The order of two texts by the code points of their characters. -/
def compareByCodePoint (a b : String) : Ordering :=
  compareFrom 0 (units a) (units b)

/-- The order of two texts by their UTF-16 code units. -/
def compareByCodeUnit (a b : String) : Ordering :=
  compareLex (units a) (units b)

/-- The texts in ascending order of their code points. -/
def sortByCodePoint (items : List String) : List String :=
  items.mergeSort fun a b => (compareByCodePoint a b).isLE

theorem compareLex_self (a : List Nat) : compareLex a a = .eq := by
  induction a with
  | nil => rfl
  | cons x xs ih => simp [compareLex, ih]

theorem compareLex_swap (a b : List Nat) : (compareLex a b).swap = compareLex b a := by
  induction a generalizing b with
  | nil => cases b <;> rfl
  | cons x xs ih =>
    cases b with
    | nil => rfl
    | cons y ys =>
      simp only [compareLex]
      rcases Nat.lt_trichotomy x y with h | h | h
      · simp [h, Nat.lt_asymm h]
      · simp [h, ih]
      · simp [h, Nat.lt_asymm h]

end CallGraph.Text
