import ContextLog.Text.Digit
/-!
# Padding specifications

How a name is fitted into a width: `[[fill]align][sign][z][#][0][width][grouping][.precision][type]`.
A name takes a fill character, one of the alignments `<`, `>` and `^`, a width, and a precision that
cuts it; the parts that make sense for numbers only are read and then refused. A zero before the
width sets the fill alone.
-/

namespace ContextLog.Text

/-- Where the padding of a name stands. -/
inductive Alignment
  | left
  | right
  | center
  /-- Between a sign and the digits of a number. -/
  | afterSign
  deriving DecidableEq, Repr, Inhabited

/-- Why a name cannot be fitted as asked. -/
inductive PaddingFault
  | tooManyDigits
  | missingPrecision
  | invalid (spec : String)
  | groupingWithType (grouping : Char) (type : Char)
  | bothGroupings
  | unknownType (type : Char)
  | signNotAllowed
  | spaceNotAllowed
  | zeroSignNotAllowed
  | alternateNotAllowed
  | afterSignNotAllowed
  deriving DecidableEq, Repr, Inhabited

/-- A character in a fault's message: itself, or its number if it is a blank, a control or beyond
the seven-bit ones. -/
def PaddingFault.shownType (c : Char) : String :=
  if 32 < c.toNat ∧ c.toNat < 128 then String.ofList [c]
  else "\\x" ++ String.ofList (Nat.toDigits 16 c.toNat)

/-- The wording of a fault. -/
def PaddingFault.message : PaddingFault → String
  | .tooManyDigits => "Too many decimal digits in format string"
  | .missingPrecision => "Format specifier missing precision"
  | .invalid spec => "Invalid format specifier '" ++ spec ++ "' for object of type 'str'"
  | .groupingWithType g c => "Cannot specify '" ++ String.ofList [g] ++ "' with '" ++ shownType c ++ "'."
  | .bothGroupings => "Cannot specify both ',' and '_'."
  | .unknownType c => "Unknown format code '" ++ shownType c ++ "' for object of type 'str'"
  | .signNotAllowed => "Sign not allowed in string format specifier"
  | .spaceNotAllowed => "Space not allowed in string format specifier"
  | .zeroSignNotAllowed => "Negative zero coercion (z) not allowed in string format specifier"
  | .alternateNotAllowed => "Alternate form (#) not allowed in string format specifier"
  | .afterSignNotAllowed => "'=' alignment not allowed in string format specifier"

/-- What a specification asks for. -/
structure Padding where
  fill : Char := ' '
  alignment : Alignment := .left
  sign : Option Char := none
  zeroSign : Bool := false
  alternate : Bool := false
  width : Nat := 0
  grouping : Option Char := none
  precision : Option Nat := none
  type : Char := 's'
  deriving DecidableEq, Repr, Inhabited

namespace Padding

/-- The alignment that a character stands for. -/
def alignmentOf? : Char → Option Alignment
  | '<' => some .left
  | '>' => some .right
  | '^' => some .center
  | '=' => some .afterSign
  | _ => none

/-- A fill character with an alignment, or an alignment alone. -/
def readAlignment : List Char → Option (Option Char × Alignment) × List Char
  | cs@(a :: b :: rest) =>
    match alignmentOf? b, alignmentOf? a with
    | some x, _ => (some (some a, x), rest)
    | none, some x => (some (none, x), b :: rest)
    | none, none => (none, cs)
  | [a] =>
    match alignmentOf? a with
    | some x => (some (none, x), [])
    | none => (none, [a])
  | [] => (none, [])

/-- A character taken from the front if it is the one looked for. -/
def readFlag (c : Char) : List Char → Bool × List Char
  | d :: rest => if d = c then (true, rest) else (false, d :: rest)
  | [] => (false, [])

/-- The greatest number that a width or a precision may be, `2 ^ 63 - 1`. -/
def numberLimit : Nat := 9223372036854775807

/-- A row of digits of any script, if there is one. -/
def readNumber (cs : List Char) : Except PaddingFault (Option Nat × List Char) :=
  let digits := cs.takeWhile fun c => (decimalValue? c).isSome
  let rest := cs.drop digits.length
  let n := digits.foldl (fun n c => 10 * n + (decimalValue? c).getD 0) 0
  if digits.isEmpty then .ok (none, rest)
  else if numberLimit < n then .error .tooManyDigits
  else .ok (some n, rest)

/-- A comma or an underscore between groups of digits, but not both. -/
def readGrouping (cs : List Char) : Except PaddingFault (Option Char × List Char) :=
  let (comma, cs) := readFlag ',' cs
  let (underscore, cs) := readFlag '_' cs
  if underscore && comma then .error .bothGroupings
  else if underscore && cs.head? = some ',' then .error .bothGroupings
  else .ok (if comma then some ',' else if underscore then some '_' else none, cs)

/-- Reads a specification. -/
def read (spec : String) : Except PaddingFault Padding := do
  let (aligned, cs) := readAlignment spec.toList
  let (sign, cs) := match cs with
    | c :: rest => if c = ' ' ∨ c = '+' ∨ c = '-' then (some c, rest) else (none, cs)
    | [] => (none, [])
  let (zeroSign, cs) := readFlag 'z' cs
  let (alternate, cs) := readFlag '#' cs
  let fillGiven := (aligned.bind (·.1)).isSome
  let (zeroFill, cs) := if fillGiven then (false, cs) else readFlag '0' cs
  let (width, cs) ← readNumber cs
  let (grouping, cs) ← readGrouping cs
  let (pointed, cs) := readFlag '.' cs
  let (precision, cs) ← if pointed then readNumber cs else pure (none, cs)
  if pointed && precision.isNone then throw .missingPrecision
  let type ← match cs with
    | [] => pure 's'
    | [c] => pure c
    | _ => throw (.invalid spec)
  if let some g := grouping then
    unless type ∈ groupedTypes g do throw (.groupingWithType g type)
  return {
    fill := (aligned.bind (·.1)).getD (if zeroFill then '0' else ' ')
    alignment := (aligned.map (·.2)).getD .left
    sign, zeroSign, alternate
    width := width.getD 0
    grouping, precision, type }
where
  /-- The number types whose digits may be grouped. -/
  groupedTypes (g : Char) : List Char :=
    ['d', 'e', 'f', 'g', 'E', 'G', '%', 'F', '\x00'] ++ (if g = '_' then ['b', 'o', 'x', 'X'] else [])

/-- Refuses what makes sense for numbers only. -/
def check (p : Padding) : Except PaddingFault Unit := do
  unless p.type = 's' do throw (.unknownType p.type)
  match p.sign with
  | some ' ' => throw .spaceNotAllowed
  | some _ => throw .signNotAllowed
  | none => pure ()
  if p.zeroSign then throw .zeroSignNotAllowed
  if p.alternate then throw .alternateNotAllowed
  if p.alignment = .afterSign then throw .afterSignNotAllowed

/-- The characters cut to the precision and padded to the width. Of an odd padding around a name the
larger half stands behind it. -/
def fit (p : Padding) (cs : List Char) : List Char :=
  let kept := match p.precision with
    | some n => cs.take n
    | none => cs
  let gap := p.width - kept.length
  let before := match p.alignment with
    | .left | .afterSign => 0
    | .right => gap
    | .center => gap / 2
  List.replicate before p.fill ++ kept ++ List.replicate (gap - before) p.fill

end Padding

/-- The name fitted as the specification says. -/
def padName (name spec : String) : Except PaddingFault String := do
  if spec = "" then return name
  let p ← Padding.read spec
  p.check
  return String.ofList (p.fit name.toList)

end ContextLog.Text
