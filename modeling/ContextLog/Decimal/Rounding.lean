/-!
# Rounding a quotient

`divEven num den` is the whole number nearest to `num / den`; a quotient that lies exactly between
two whole numbers goes to the even one. Reading a decimal into a binary float and writing a float
with a fixed number of places are both one such division.

`divEven_mul_left`: a quotient without remainder is itself.
-/

namespace ContextLog.Decimal

/-- Two to a power. -/
def twoTo (n : Nat) : Nat := Nat.pow 2 n

/-- Ten to a power. -/
def tenTo (n : Nat) : Nat := Nat.pow 10 n

/-- The whole number nearest to `num / den`, a tie going to the even neighbour. -/
def divEven (num den : Nat) : Nat :=
  let q := num / den
  let r := 2 * (num % den)
  if r < den then q
  else if den < r then q + 1
  else q + q % 2

theorem divEven_mul_left (q den : Nat) (h : 0 < den) : divEven (den * q) den = q := by
  simp [divEven, h, Nat.mul_div_cancel_left q h]

/-- The rounded quotient is one of the two neighbours of the exact one. -/
theorem divEven_eq_or (num den : Nat) :
    divEven num den = num / den ∨ divEven num den = num / den + 1 := by
  simp only [divEven]
  split
  · exact .inl rfl
  · split
    · exact .inr rfl
    · omega

/-- How many decimal digits a number has, zero having none. -/
def digitCount (n : Nat) : Nat :=
  if n = 0 then 0 else (Nat.toDigits 10 n).length

/-- The decimal exponent of the positive quotient `num / den`: the greatest `k` with
`10 ^ k ≤ num / den`. Below one, that is minus the number of digits of the greatest whole number
under `den / num`. -/
def decimalExponent (num den : Nat) : Int :=
  if den ≤ num then (digitCount (num / den) : Int) - 1
  else -(digitCount ((den - 1) / num) : Int)

/-- The quotient `num / den · 10 ^ k`, as a pair of numerator and denominator. -/
def shiftRatio (num den : Nat) (k : Int) : Nat × Nat :=
  if 0 ≤ k then (num * tenTo k.toNat, den) else (num, den * tenTo (-k).toNat)

end ContextLog.Decimal
