import ContextLog.Decimal.Binary64
/-!
# The shortest decimal that reads back

A finite double is nearest to every number of an interval around it, with the ends when its
significand is even. `shortest` looks for the coarsest decimal grid that has a point in that
interval, and takes the point nearest to the double. Seventeen digits always suffice.

`Binary64.text` writes those digits: positionally while the first digit stands at `10 ^ -4` up to
`10 ^ 15`, with `.0` after a whole number, and else with an exponent of at least two digits.
-/

namespace ContextLog.Binary64

open Decimal

/-- The interval of the numbers that round to a double, and the double itself, in quarters of the
unit in the last place. Below a power of two the next double is half as far away. -/
structure Interval where
  low : Nat
  value : Nat
  high : Nat
  /-- The ends belong to the interval. -/
  closed : Bool

/-- The interval of the numbers that round to `significand · 2 ^ exponent`. -/
def interval (significand : Nat) (exponent : Int) : Interval where
  low := 4 * significand - (if significand = twoTo 52 ∧ -1074 < exponent then 1 else 2)
  value := 4 * significand
  high := 4 * significand + 2
  closed := significand % 2 = 0

/-- Does `num / den`, in quarters of a unit, lie in the interval? -/
def Interval.contains (i : Interval) (num den : Nat) : Bool :=
  if i.closed then i.low * den ≤ num && num ≤ i.high * den
  else i.low * den < num && num < i.high * den

/-- A decimal number `digits · 10 ^ exponent`. -/
structure Scientific where
  digits : Nat
  exponent : Int
  deriving DecidableEq, Repr, Inhabited

/-- The distance between two numbers. -/
private def gap (a b : Nat) : Nat := (a - b) + (b - a)

/-- The point of the grid of step `10 ^ exponent` that lies in the interval of
`significand · 2 ^ binary`, the nearer one if both neighbours do, and of two equally near ones the
even one. -/
def onGrid (significand : Nat) (binary : Int) (exponent : Int) : Option Scientific :=
  let i := interval significand binary
  -- a grid point is worth `num / den` quarter units
  let (num, den) := ratio 1 (2 - binary)
  let (num, den) := shiftRatio num den exponent
  let below := i.value * den / num
  let above := below + 1
  let inside (digits : Nat) : Bool := i.contains (digits * num) den
  match inside below, inside above with
  | true, true =>
    let toBelow := gap (i.value * den) (below * num)
    let toAbove := gap (above * num) (i.value * den)
    if toBelow < toAbove ∨ (toBelow = toAbove ∧ below % 2 = 0) then some ⟨below, exponent⟩
    else some ⟨above, exponent⟩
  | true, false => some ⟨below, exponent⟩
  | false, true => some ⟨above, exponent⟩
  | false, false => none

/-- The shortest decimal that reads back as `significand · 2 ^ exponent`, which is positive. -/
def shortest (significand : Nat) (exponent : Int) : Scientific :=
  let (num, den) := ratio significand exponent
  let leading := decimalExponent num den
  let grids := (List.range 17).map fun (n : Nat) => leading - n
  (grids.findSome? (onGrid significand exponent)).getD ⟨0, 0⟩

/-- A decimal whose last digit is not zero. -/
def Scientific.strip (s : Scientific) : Scientific :=
  let digits := Nat.toDigits 10 s.digits
  let zeros := (digits.reverse.takeWhile (· == '0')).length
  ⟨s.digits / tenTo zeros, s.exponent + zeros⟩

/-- An exponent as text: its sign and at least two digits. -/
def exponentText (e : Int) : String :=
  let digits := String.ofList (Nat.toDigits 10 e.natAbs)
  (if e < 0 then "-" else "+") ++ (if digits.length < 2 then "0" ++ digits else digits)

/-- A positive decimal as text: positional from `10 ^ -4` to below `10 ^ 16`. -/
def Scientific.text (s : Scientific) : String :=
  let t := s.strip
  let digits := Nat.toDigits 10 t.digits
  -- the point stands after this many digits
  let point : Int := digits.length + t.exponent
  if -4 < point ∧ point ≤ 16 then
    if point ≤ 0 then "0." ++ String.ofList (List.replicate (-point).toNat '0' ++ digits)
    else if digits.length ≤ point then
      String.ofList (digits ++ List.replicate (point.toNat - digits.length) '0') ++ ".0"
    else String.ofList (digits.take point.toNat) ++ "." ++ String.ofList (digits.drop point.toNat)
  else
    let mantissa := match digits with
      | [d] => String.ofList [d]
      | d :: rest => String.ofList (d :: '.' :: rest)
      | [] => ""
    mantissa ++ "e" ++ exponentText (point - 1)

/-- The text of a double: the shortest decimal that reads back as it. -/
def text : Binary64 → String
  | .nan _ => "nan"
  | .infinity s => if s then "-inf" else "inf"
  | .finite s m e =>
    let magnitude := if m = 0 then "0.0" else (shortest m e).text
    if s then "-" ++ magnitude else magnitude

end ContextLog.Binary64
