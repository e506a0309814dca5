import ContextLog.Decimal.Binary64
import ContextLog.Text.Digit
/-!
# Reading numbers

`readDouble` reads an optional sign, digits with an optional point and an optional exponent, or one
of the words `inf`, `infinity` and `nan` in any letter case. Blanks may surround the number and a
single underscore may stand between two digits. In a text with characters beyond the seven-bit ones
the digits and blanks of every script count.

`readWhole` reads decimal digits of any script behind an optional minus sign.
-/

namespace ContextLog.Decimal

open Text

/-- A text longer than this many digits is not read as a whole number, nor is such a number
written. -/
def digitLimit : Nat := 4300

/-- The text with the blanks and digits of other scripts replaced by plain ones. A character that is
neither becomes one that no number contains. -/
def plainForm (cs : List Char) : List Char :=
  if cs.all (·.toNat < 0x80) then cs
  else cs.map fun c =>
    if c.toNat < 0x7f then c
    else if wideBlanks.contains c then ' '
    else match decimalValue? c with
      | some d => Nat.digitChar d
      | none => '?'

/-- The text without the blanks around it. -/
def trimBlanks (cs : List Char) : List Char :=
  ((cs.dropWhile isAsciiBlank).reverse.dropWhile isAsciiBlank).reverse

/-- The text without its underscores, each of which must stand between two digits. `previous` says
whether a digit stands just before. -/
def dropUnderscores (previous : Bool) : List Char → Option (List Char)
  | [] => some []
  | '_' :: rest =>
    if previous && (rest.head?.map Char.isDigit).getD false then dropUnderscores false rest else none
  | c :: rest => (dropUnderscores c.isDigit rest).map (c :: ·)

/-- The sign in front of a number, and what follows it. -/
def readSign : List Char → Bool × List Char
  | '-' :: rest => (true, rest)
  | '+' :: rest => (false, rest)
  | cs => (false, cs)

/-- The exponent of a number, which ends the text. -/
def readExponent : List Char → Option Int
  | [] => some 0
  | c :: rest =>
    if c = 'e' ∨ c = 'E' then
      let (negative, digits) := readSign rest
      if digits.isEmpty || !digits.all Char.isDigit then none
      else
        let n : Int := Nat.ofDigitChars 10 digits 0
        some (if negative then -n else n)
    else none

/-- The magnitude of a number, which ends the text. -/
def readMagnitude (negative : Bool) (cs : List Char) : Option Binary64 :=
  let word := String.ofList (cs.map Char.toLower)
  if word = "inf" ∨ word = "infinity" then some (.infinity negative)
  else if word = "nan" then some (.nan 0)
  else
    let whole := cs.takeWhile Char.isDigit
    let rest := cs.dropWhile Char.isDigit
    let (places, rest) := match rest with
      | '.' :: rest => (rest.takeWhile Char.isDigit, rest.dropWhile Char.isDigit)
      | rest => ([], rest)
    if whole.isEmpty && places.isEmpty then none
    else do
      let exponent ← readExponent rest
      let digits := Nat.ofDigitChars 10 (whole ++ places) 0
      return .ofDecimal negative digits (exponent - places.length)

/-- The double nearest to the number that a text writes, if it writes one. -/
def readDouble (s : String) : Option Binary64 := do
  let cs ← dropUnderscores false (trimBlanks (plainForm s.toList))
  let (negative, rest) := readSign cs
  readMagnitude negative rest

/-- The digits of a text in plain form, if they are all decimal. -/
def plainDigits (cs : List Char) : Option (List Char) :=
  cs.mapM fun c => (decimalValue? c).map Nat.digitChar

/-- The whole number of a row of digits, unless there are too many of them. -/
def readNatural (cs : List Char) : Option Nat := do
  let digits ← plainDigits cs
  if digitLimit < digits.length then none else some (Nat.ofDigitChars 10 digits 0)

/-- A whole number: digits behind an optional minus sign. -/
def readWhole : List Char → Option Int
  | '-' :: rest => (readNatural rest).map fun n => -(n : Int)
  | cs => (readNatural cs).map fun n => (n : Int)

end ContextLog.Decimal
