import ContextLog.Decimal.Shortest
/-!
# Doubles with a chosen number of digits

`fixed` writes a magnitude with a number of places after the point, `scientific` with an exponent
and a number of places, `general` with a number of significant digits in whichever of the two forms
is the shorter. Every digit is exact: the quotient is rounded once, a tie going to the even digit.
The sign is not written here.
-/

namespace ContextLog.Binary64

open Decimal

/-- How the digits of a double are laid out. -/
inductive Layout
  | fixed
  | scientific
  | general
  deriving DecidableEq, Repr, Inhabited

/-- The digits of a number with zeros in front up to a width. -/
def paddedDigits (width n : Nat) : List Char :=
  let digits := Nat.toDigits 10 n
  List.replicate (width - digits.length) '0' ++ digits

/-- A whole number of units `10 ^ -places`, with the point in its place. A point that no digit
follows is kept only on request. -/
def withPoint (places n : Nat) (keepPoint : Bool) : String :=
  let digits := paddedDigits (places + 1) n
  let whole := digits.take (digits.length - places)
  let rest := digits.drop (digits.length - places)
  String.ofList (whole ++ (if places = 0 ∧ !keepPoint then [] else '.' :: rest))

/-- The magnitude of a double with `places` digits after the point. -/
def fixed (significand : Nat) (exponent : Int) (places : Nat) (keepPoint : Bool) : String :=
  let (num, den) := ratio significand exponent
  withPoint places (divEven (num * tenTo places) den) keepPoint

/-- The magnitude of a double rounded to `places + 1` significant digits, and the exponent of the
first of them. -/
def significantDigits (significand : Nat) (exponent : Int) (places : Nat) : Nat × Int :=
  if significand = 0 then (0, 0) else
  let (num, den) := ratio significand exponent
  let leading := decimalExponent num den
  let (num, den) := shiftRatio num den (places - leading)
  let digits := divEven num den
  if digits = tenTo (places + 1) then (tenTo places, leading + 1) else (digits, leading)

/-- The magnitude of a double with one digit before and `places` after the point, and an
exponent. -/
def scientific (significand : Nat) (exponent : Int) (places : Nat) (keepPoint : Bool) : String :=
  let (digits, leading) := significantDigits significand exponent places
  withPoint places digits keepPoint ++ "e" ++ exponentText leading

/-- A text with a point, without the zeros at its end and without a point that ends it. -/
def dropZeros (s : String) : String :=
  let kept := s.toList.reverse.dropWhile (· == '0')
  String.ofList (match kept with
    | '.' :: rest => rest.reverse
    | _ => kept.reverse)

/-- The magnitude of a double with `precision` significant digits, of which zeros at the end are
dropped unless they are asked for. It is positional for a first digit from `10 ^ -4` up to the last
of the significant digits. -/
def general (significand : Nat) (exponent : Int) (precision : Nat) (keepZeros : Bool) : String :=
  let places := precision - 1
  let (digits, leading) := significantDigits significand exponent places
  let tidy (s : String) : String := if s.contains '.' && !keepZeros then dropZeros s else s
  if -4 ≤ leading ∧ leading < (places : Int) + 1 then
    tidy (withPoint (places - leading).toNat digits keepZeros)
  else
    tidy (withPoint places digits keepZeros) ++ "e" ++ exponentText leading

/-- The magnitude of a double in a layout. A double that is not finite has its name. -/
def magnitudeText (layout : Layout) (precision : Nat) (alternate : Bool) : Binary64 → String
  | .nan _ => "nan"
  | .infinity _ => "inf"
  | .finite _ m e =>
    match layout with
    | .fixed => fixed m e precision alternate
    | .scientific => scientific m e precision alternate
    | .general => general m e precision alternate

end ContextLog.Binary64
