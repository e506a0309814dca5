import ContextLog.Template.Fault
/-!
# Templates

A template is text with directives in it: a percent sign, flags, a width, a precision and a
conversion character. `pieces` reads a template from left to right, one character at a time. A
directive that cannot be read is a piece too, because what is wrong with it is reported only after
the pieces before it have been filled.

`scan_percent` and `scan_text` say how the two simplest parts of a template are read.
-/

namespace ContextLog.Template

/-- A width or a precision: written in the template, or taken from the arguments. -/
inductive Size
  | fixed (n : Nat)
  | argument
  deriving DecidableEq, Repr, Inhabited

/-- What stands in a directive before its conversion character. -/
structure Directive where
  left : Bool := false
  plus : Bool := false
  blank : Bool := false
  alternate : Bool := false
  zero : Bool := false
  width : Option Size := none
  precision : Option Size := none
  deriving DecidableEq, Repr, Inhabited

/-- A part of a template. -/
inductive Piece
  | literal (c : Char)
  /-- A directive with its conversion character and the position of that character. -/
  | directive (d : Directive) (conversion : Char) (position : Nat)
  /-- A directive as far as it can be read, and what is wrong then. -/
  | broken (d : Directive) (fault : Fault)
  deriving DecidableEq, Repr, Inhabited

/-- How far a directive has been read. -/
inductive Stage
  | text
  /-- Behind the percent sign. -/
  | opened
  | flags (d : Directive)
  | width (d : Directive) (n : Nat)
  | widthDone (d : Directive)
  /-- Behind the point. -/
  | point (d : Directive)
  | precision (d : Directive) (n : Nat)
  | precisionDone (d : Directive)
  /-- Behind a letter for the size of an argument, which means nothing. -/
  | modifier (d : Directive)
  deriving DecidableEq, Repr, Inhabited

/-- The greatest width that a template may write, `2 ^ 63 - 1`. -/
def widthLimit : Nat := 9223372036854775807

/-- The greatest precision that a template may write, `2 ^ 31 - 1`. -/
def precisionLimit : Nat := 2147483647

/-- The flag that a character stands for, set on a directive. -/
def Directive.flag? (d : Directive) : Char → Option Directive
  | '-' => some { d with left := true }
  | '+' => some { d with plus := true }
  | ' ' => some { d with blank := true }
  | '#' => some { d with alternate := true }
  | '0' => some { d with zero := true }
  | _ => none

/-- What a stage makes of a character: a piece that is complete, and the next stage. -/
abbrev Step := Option Piece × Stage

/-- A directive that cannot be read. -/
def fail (d : Directive) (fault : Fault) : Step := (some (.broken d fault), .text)

/-- The character ends the directive. -/
def finish (d : Directive) (position : Nat) (c : Char) : Step :=
  (some (.directive d c position), .text)

/-- The character stands behind the precision. -/
def afterPrecision (d : Directive) (position : Nat) (c : Char) : Step :=
  if c = 'h' ∨ c = 'l' ∨ c = 'L' then (none, .modifier d) else finish d position c

/-- The character stands behind the width. -/
def afterWidth (d : Directive) (position : Nat) (c : Char) : Step :=
  if c = '.' then (none, .point { d with precision := some (.fixed 0) })
  else afterPrecision d position c

/-- A further digit of the width. -/
def widthDigit (d : Directive) (n : Nat) (c : Char) : Step :=
  let n := 10 * n + (c.toNat - '0'.toNat)
  if widthLimit < n then fail d .widthTooBig
  else (none, .width { d with width := some (.fixed n) } n)

/-- A further digit of the precision. -/
def precisionDigit (d : Directive) (n : Nat) (c : Char) : Step :=
  let n := 10 * n + (c.toNat - '0'.toNat)
  if precisionLimit < n then fail d .precisionTooBig
  else (none, .precision { d with precision := some (.fixed n) } n)

/-- The character stands behind the flags seen so far. -/
def afterFlag (d : Directive) (position : Nat) (c : Char) : Step :=
  match d.flag? c with
  | some d => (none, .flags d)
  | none =>
    if c = '*' then (none, .widthDone { d with width := some .argument })
    else if c.isDigit then widthDigit d 0 c
    else afterWidth d position c

/-- What a stage makes of the character at a position. -/
def Stage.step (position : Nat) (c : Char) : Stage → Step
  | .text => if c = '%' then (none, .opened) else (some (.literal c), .text)
  | .opened =>
    if c = '%' then (some (.literal '%'), .text)
    else if c = '(' then fail {} .named
    else afterFlag {} position c
  | .flags d => afterFlag d position c
  | .width d n => if c.isDigit then widthDigit d n c else afterWidth d position c
  | .widthDone d => afterWidth d position c
  | .point d =>
    if c = '*' then (none, .precisionDone { d with precision := some .argument })
    else if c.isDigit then precisionDigit d 0 c
    else afterPrecision d position c
  | .precision d n => if c.isDigit then precisionDigit d n c else afterPrecision d position c
  | .precisionDone d => afterPrecision d position c
  | .modifier d => finish d position c

/-- What is left of a directive when the template ends inside it. -/
def Stage.atEnd : Stage → List Piece
  | .text => []
  | .opened => [.broken {} .incomplete]
  | .flags d | .width d _ | .widthDone d | .point d | .precision d _ | .precisionDone d
  | .modifier d => [.broken d .incomplete]

/-- The pieces of a template from a stage and a position on. -/
def scan (stage : Stage) (position : Nat) : List Char → List Piece
  | [] => stage.atEnd
  | c :: rest =>
    let (piece, next) := stage.step position c
    piece.toList ++ scan next (position + 1) rest

/-- The pieces of a template. -/
def pieces (template : String) : List Piece := scan .text 0 template.toList

/-- A doubled percent sign is one percent sign of text. -/
theorem scan_percent (i : Nat) (rest : List Char) :
    scan .text i ('%' :: '%' :: rest) = .literal '%' :: scan .text (i + 2) rest := by
  simp [scan, Stage.step]

/-- Any character but a percent sign is text. -/
theorem scan_text (i : Nat) (c : Char) (rest : List Char) (h : c ≠ '%') :
    scan .text i (c :: rest) = .literal c :: scan .text (i + 1) rest := by
  simp [scan, Stage.step, h]

end ContextLog.Template
