import ContextLog.Value.ErrorKind
/-!
# Template faults

Why the arguments of a template cannot be put into it, with the wording and the kind of each fault.
-/

namespace ContextLog.Template

/-- Why a template cannot be filled. -/
inductive Fault
  /-- Arguments are left over. -/
  | leftover
  /-- A directive has no argument. -/
  | tooFew
  /-- The template ends inside a directive. -/
  | incomplete
  /-- A directive names its argument. -/
  | named
  | starNotWhole
  | widthTooBig
  | precisionTooBig
  | starWidthOutOfRange
  | starPrecisionOutOfRange
  /-- The character at a position is no conversion. -/
  | unsupported (conversion : Char) (position : Nat)
  | notReal (conversion : Char) (type : String)
  | notWhole (conversion : Char) (type : String)
  | notDouble (type : String)
  | notCharacter
  | characterOutOfRange
  | nanToWhole
  | infinityToWhole
  | tooLargeForDouble
  | tooManyDigits
  deriving DecidableEq, Repr, Inhabited

namespace Fault

/-- A character as a fault shows it: itself from `0x1f` up to the last printable seven-bit one, and
else a question mark. -/
def shownChar (c : Char) : String :=
  if 0x1f ≤ c.toNat ∧ c.toNat < 0x7f then String.ofList [c] else "?"

/-- The wording of a fault. -/
def message : Fault → String
  | leftover => "not all arguments converted during string formatting"
  | tooFew => "not enough arguments for format string"
  | incomplete => "incomplete format"
  | named => "format requires a mapping"
  | starNotWhole => "* wants int"
  | widthTooBig => "width too big"
  | precisionTooBig => "precision too big"
  | starWidthOutOfRange => "Python int too large to convert to C ssize_t"
  | starPrecisionOutOfRange => "Python int too large to convert to C int"
  | unsupported c i =>
    "unsupported format character '" ++ shownChar c ++ "' (0x" ++
      String.ofList (Nat.toDigits 16 c.toNat) ++ ") at index " ++ toString i
  | notReal c t =>
    "%" ++ String.ofList [c] ++ " format: a real number is required, not " ++ t
  | notWhole c t =>
    "%" ++ String.ofList [c] ++ " format: an integer is required, not " ++ t
  | notDouble t => "must be real number, not " ++ t
  | notCharacter => "%c requires int or char"
  | characterOutOfRange => "%c arg not in range(0x110000)"
  | nanToWhole => "cannot convert float NaN to integer"
  | infinityToWhole => "cannot convert float infinity to integer"
  | tooLargeForDouble => "int too large to convert to float"
  | tooManyDigits => "precision too large"

/-- The kind of a fault. -/
def kind : Fault → ErrorKind
  | leftover | tooFew | named | starNotWhole | notReal _ _ | notWhole _ _ | notDouble _
  | notCharacter => .type
  | incomplete | widthTooBig | precisionTooBig | unsupported _ _ | nanToWhole => .value
  | starWidthOutOfRange | starPrecisionOutOfRange | characterOutOfRange | infinityToWhole
  | tooLargeForDouble | tooManyDigits => .overflow

end Fault

end ContextLog.Template
