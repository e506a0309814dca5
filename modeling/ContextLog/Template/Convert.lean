import ContextLog.Template.Basic
import ContextLog.Decimal.Fixed
import ContextLog.Failure.Message
/-!
# Conversions

How a directive writes its argument. Texts are cut to the precision and padded with spaces; whole
numbers have at least as many digits as the precision says; doubles have that many places. A number
may be padded with zeros, which stand behind its sign and the mark of its base.
-/

namespace ContextLog.Template

open Text

/-- What a conversion character asks for. -/
inductive Conversion
  /-- The text of the argument for a reader. -/
  | shown
  /-- The representation of the argument, in seven-bit characters if `plain`. -/
  | representation (plain : Bool)
  | character
  | decimal
  | octal
  | hexadecimal (capital : Bool)
  | double (layout : Binary64.Layout) (capital : Bool)
  deriving DecidableEq, Repr, Inhabited

/-- The conversion that a character asks for. -/
def Conversion.ofChar? : Char → Option Conversion
  | 's' => some .shown
  | 'r' => some (.representation false)
  | 'a' => some (.representation true)
  | 'c' => some .character
  | 'd' | 'i' | 'u' => some .decimal
  | 'o' => some .octal
  | 'x' => some (.hexadecimal false)
  | 'X' => some (.hexadecimal true)
  | 'e' => some (.double .scientific false)
  | 'E' => some (.double .scientific true)
  | 'f' => some (.double .fixed false)
  | 'F' => some (.double .fixed true)
  | 'g' => some (.double .general false)
  | 'G' => some (.double .general true)
  | _ => none

/-- A directive whose sizes are known. -/
structure Shape where
  left : Bool := false
  plus : Bool := false
  blank : Bool := false
  alternate : Bool := false
  zero : Bool := false
  width : Nat := 0
  precision : Option Nat := none
  deriving DecidableEq, Repr, Inhabited

/-- A whole number cannot be asked for more digits than this. -/
def wholeDigitsLimit : Nat := precisionLimit - 3

/-- The spaces around a text. -/
def Shape.pad (s : Shape) (cs : List Char) : List Char :=
  let gap := List.replicate (s.width - cs.length) ' '
  if s.left then cs ++ gap else gap ++ cs

/-- A text, cut and padded. -/
def Shape.text (s : Shape) (cs : List Char) : List Char :=
  s.pad (match s.precision with
    | some n => cs.take n
    | none => cs)

/-- A number from its sign, the mark of its base and its digits. -/
def Shape.number (s : Shape) (negative : Bool) (mark digits : List Char) : List Char :=
  let sign :=
    if negative then ['-'] else if s.plus then ['+'] else if s.blank then [' '] else []
  let front := sign ++ mark
  if s.zero && !s.left then
    front ++ List.replicate (s.width - front.length - digits.length) '0' ++ digits
  else s.pad (front ++ digits)

/-- A whole number in a base. -/
def Shape.whole (s : Shape) (base : Nat) (mark : List Char) (capital : Bool) (n : Int) :
    Except Failure (List Char) :=
  let least := s.precision.getD 0
  if wholeDigitsLimit < least then .error (.template .tooManyDigits)
  else
    let digits := Nat.toDigits base n.natAbs
    let digits := List.replicate (least - digits.length) '0' ++ digits
    let upper (cs : List Char) := if capital then cs.map Char.toUpper else cs
    .ok (s.number (n < 0) (if s.alternate then upper mark else []) (upper digits))

/-- A double in a layout. -/
def Shape.double (s : Shape) (layout : Binary64.Layout) (capital : Bool) (x : Binary64) :
    List Char :=
  let magnitude := (x.magnitudeText layout (s.precision.getD 6) s.alternate).toList
  s.number x.isNegative [] (if capital then magnitude.map Char.toUpper else magnitude)

/-- The whole number that an argument is cut to. -/
def wholeOf (conversion : Char) (v : Value) : Except Failure Int :=
  match v.index?, v with
  | some n, _ => .ok n
  | none, .float (.nan _) => .error (.template .nanToWhole)
  | none, .float (.infinity _) => .error (.template .infinityToWhole)
  | none, .float (.finite s m e) => .ok (Binary64.truncate s m e)
  | none, v => .error (.template (.notReal conversion v.typeName))

/-- The whole number that an argument is. -/
def indexOf (conversion : Char) (v : Value) : Except Failure Int :=
  match v.index? with
  | some n => .ok n
  | none => .error (.template (.notWhole conversion v.typeName))

/-- The double nearest to an argument. -/
def doubleOf (v : Value) : Except Failure Binary64 :=
  match v, v.index? with
  | .float x, _ => .ok x
  | _, some n => match Binary64.ofInt n with
    | .infinity _ => .error (.template .tooLargeForDouble)
    | x => .ok x
  | .object { real := some x, .. }, none => .ok x
  | v, none => .error (.template (.notDouble (v.typeName.take 50).toString))

/-- The character that an argument is or numbers. -/
def characterOf (v : Value) : Except Failure Char :=
  match v, v.index? with
  | .text t, _ => match t.content.toList with
    | [c] => .ok c
    | _ => .error (.template .notCharacter)
  | _, some n =>
    if n < 0 ∨ 0x10ffff < n then .error (.template .characterOutOfRange)
    else .ok (if n.toNat.isValidChar then Char.ofNat n.toNat else Char.ofNat 0xfffd)
  | _, none => .error (.template .notCharacter)

/-- An argument as a conversion writes it. -/
def Shape.write (s : Shape) (conversion : Char) (position : Nat) (v : Value) :
    Except Failure (List Char) :=
  match Conversion.ofChar? conversion with
  | none => .error (.template (.unsupported conversion position))
  | some .shown => do return s.text (← v.shown).toList
  | some (.representation asPlain) => do
    let text ← v.repr
    return s.text (if asPlain then plain text else text).toList
  | some .character => do return s.pad [← characterOf v]
  | some .decimal => do
    let n ← wholeOf conversion v
    -- The precision is looked at before the number is shown.
    let text ← s.whole 10 [] false n
    let _ ← wholeText n
    return text
  | some .octal => do s.whole 8 ['0', 'o'] false (← indexOf conversion v)
  | some (.hexadecimal capital) => do s.whole 16 ['0', 'x'] capital (← indexOf conversion v)
  | some (.double layout capital) => do return s.double layout capital (← doubleOf v)

end ContextLog.Template
