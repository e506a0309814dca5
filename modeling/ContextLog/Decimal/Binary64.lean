import ContextLog.Decimal.Rounding
/-!
# Doubles as exact numbers

A double is a NaN, an infinity, or a sign with `significand · 2 ^ exponent`. Every finite double is a
whole multiple of `2 ^ -1074`; `scaled` is that multiple, so that comparing doubles with each other
and with whole numbers of any size is comparing integers. `ofRatio` rounds a quotient to the nearest
double, ties to the even significand, with subnormals and overflow to infinity.

Two NaNs are told apart by a tag, because a NaN is equal to nothing and yet a mapping finds the very
NaN that was put into it.
-/

namespace ContextLog

/-- A double. A finite one is `± significand · 2 ^ exponent` with a significand below `2 ^ 53`, at
least `2 ^ 52` unless the exponent is the least, `-1074`. -/
inductive Binary64
  | nan (tag : Nat)
  | infinity (negative : Bool)
  | finite (negative : Bool) (significand : Nat) (exponent : Int)
  deriving DecidableEq, Repr, Inhabited

namespace Binary64

open Decimal

/-- Zero with a sign. -/
def zero (negative : Bool) : Binary64 := .finite negative 0 (-1074)

/-- The double with a magnitude of `significand · 2 ^ exponent`, infinite from `2 ^ 1024` on. A
significand of `2 ^ 53`, which rounding up can give, moves to the next exponent. -/
def ofParts (negative : Bool) (significand : Nat) (exponent : Int) : Binary64 :=
  let (s, e) := if significand = twoTo 53 then (twoTo 52, exponent + 1) else (significand, exponent)
  if 971 < e then .infinity negative else .finite negative s e

/-- The exponent of the unit in the last place of the double nearest to `num / den`. -/
def unitExponent (num den : Nat) : Int :=
  let guess : Int := (num.log2 : Int) - den.log2 - 53
  let tooFine :=
    if 0 ≤ guess then den * twoTo guess.toNat * twoTo 53 ≤ num
    else den * twoTo 53 ≤ num * twoTo (-guess).toNat
  max (-1074) (if tooFine then guess + 1 else guess)

/-- The double nearest to `num / den`, a tie going to the even significand. -/
def ofRatio (negative : Bool) (num den : Nat) : Binary64 :=
  if num = 0 then zero negative else
  let e := unitExponent num den
  let s := if 0 ≤ e then divEven num (den * twoTo e.toNat) else divEven (num * twoTo (-e).toNat) den
  ofParts negative s e

/-- The double nearest to a whole number. -/
def ofInt (n : Int) : Binary64 := ofRatio (n < 0) n.natAbs 1

/-- The double nearest to `± digits · 10 ^ exponent`. An exponent far outside the range of a double
is answered without writing out its power of ten. -/
def ofDecimal (negative : Bool) (digits : Nat) (exponent : Int) : Binary64 :=
  let magnitude : Int := digitCount digits + exponent
  if digits = 0 ∨ magnitude < -400 then zero negative
  else if 400 < magnitude then .infinity negative
  else if 0 ≤ exponent then ofRatio negative (digits * tenTo exponent.toNat) 1
  else ofRatio negative digits (tenTo (-exponent).toNat)

/-- Is the sign of the number a minus? -/
def isNegative : Binary64 → Bool
  | .nan _ => false
  | .infinity s => s
  | .finite s _ _ => s

/-- Is the number plus or minus zero? -/
def isZero : Binary64 → Bool
  | .finite _ 0 _ => true
  | _ => false

/-- The magnitude of a finite double as a quotient. -/
def ratio (significand : Nat) (exponent : Int) : Nat × Nat :=
  if 0 ≤ exponent then (significand * twoTo exponent.toNat, 1)
  else (significand, twoTo (-exponent).toNat)

/-- How many times `2 ^ -1074` a finite double is. -/
def scaled (negative : Bool) (significand : Nat) (exponent : Int) : Int :=
  let m : Int := (significand * twoTo (exponent + 1074).toNat : Nat)
  if negative then -m else m

/-- `2 ^ 1074`: how many times `2 ^ -1074` the number one is. -/
def one : Int := twoTo 1074

/-- The whole number nearest to a finite double in the direction of zero. -/
def truncate (negative : Bool) (significand : Nat) (exponent : Int) : Int :=
  (scaled negative significand exponent).tdiv one

/-- The whole number that a double is, if it is one. -/
def toInt? : Binary64 → Option Int
  | .finite s m e =>
    let n := scaled s m e
    if n % one = 0 then some (n / one) else none
  | _ => none

end Binary64

/-- A number as the comparisons see it: a whole number or a double. -/
inductive Quantity
  | whole (n : Int)
  | double (x : Binary64)
  deriving DecidableEq, Repr, Inhabited

namespace Quantity

/-- The place of a number on the extended line: the infinities are the ends, and all else stands
between them in units of `2 ^ -1074`. A NaN has no place. -/
def place : Quantity → Option (Int × Int)
  | .whole n => some (0, n * Binary64.one)
  | .double (.nan _) => none
  | .double (.infinity s) => some (if s then -1 else 1, 0)
  | .double (.finite s m e) => some (0, Binary64.scaled s m e)

/-- The exact order of two numbers; nothing is ordered with a NaN. -/
def compare? : Quantity → Quantity → Option Ordering
  | .whole m, .whole n => some (compare m n)
  | a, b => do
    let (i, x) ← a.place
    let (j, y) ← b.place
    return (compare i j).then (compare x y)

end Quantity

end ContextLog
