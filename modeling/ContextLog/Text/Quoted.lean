import ContextLog.Text.Printable
/-!
# Quoted text

A text is quoted by single quotes, or by double ones when it holds a single quote and no double one.
A backslash and the surrounding quote are escaped, the tab and the line ends have letters of their
own, and any other character that is not printable is written by its number. Bytes are quoted in the
same way behind a `b`.
-/

namespace ContextLog.Text

/-- A number in lower-case hexadecimal, with zeros in front up to a width. -/
def hexDigits (width n : Nat) : List Char :=
  let digits := Nat.toDigits 16 n
  List.replicate (width - digits.length) '0' ++ digits

/-- A character written by its number, with as few digits as its range needs. -/
def numbered (c : Char) : List Char :=
  if c.toNat < 0x100 then '\\' :: 'x' :: hexDigits 2 c.toNat
  else if c.toNat < 0x10000 then '\\' :: 'u' :: hexDigits 4 c.toNat
  else '\\' :: 'U' :: hexDigits 8 c.toNat

/-- One character inside quotes; `keep` says which characters stand as themselves. -/
def quotedChar (quote : Char) (keep : Char → Bool) (c : Char) : List Char :=
  if c = quote ∨ c = '\\' then ['\\', c]
  else if c = '\t' then ['\\', 't']
  else if c = '\n' then ['\\', 'n']
  else if c = '\r' then ['\\', 'r']
  else if keep c then [c]
  else numbered c

/-- The quote for a text: the double one if the text holds a single quote and no double one. -/
def quoteFor (cs : List Char) : Char :=
  if cs.contains '\'' && !cs.contains '"' then '"' else '\''

/-- The characters in quotes. -/
def quotedChars (keep : Char → Bool) (cs : List Char) : List Char :=
  let quote := quoteFor cs
  quote :: cs.flatMap (quotedChar quote keep) ++ [quote]

/-- The text in quotes. -/
def quoted (s : String) : String := String.ofList (quotedChars isPrintable s.toList)

/-- A printable seven-bit character. -/
def isPlain (c : Char) : Bool := c.toNat < 0x80 && isPrintable c

/-- The text, with every character above the seven-bit ones written by its number. -/
def plain (s : String) : String :=
  String.ofList (s.toList.flatMap fun c => if c.toNat < 0x80 then [c] else numbered c)

/-- Bytes in quotes, a byte above the seven-bit ones written by its number. -/
def quotedBytes (bs : List UInt8) : String :=
  String.ofList ('b' :: quotedChars isPlain (bs.map fun b => Char.ofNat b.toNat))

end ContextLog.Text
