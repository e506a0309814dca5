import ContextLog.Template.Convert
/-!
# Filling a template

The pieces of a template take their arguments from left to right. A directive first takes those for
a width and a precision that it leaves open, then the one that it converts. Filling stops at the
first thing that is wrong, and in the end no argument may be left over.
-/

namespace ContextLog.Template

/-- The next argument as a whole number for an open width or precision. -/
def nextWhole : List Value → Except Failure (Int × List Value)
  | [] => .error (.template .tooFew)
  | v :: rest => match v.whole? with
    | some n => .ok (n, rest)
    | none => .error (.template .starNotWhole)

/-- The width of a directive, with the arguments after it. A negative one from the arguments is a
width to the left, if its magnitude fits a width at all. -/
def Directive.settleWidth (d : Directive) (args : List Value) :
    Except Failure ((Bool × Nat) × List Value) :=
  match d.width with
  | none => .ok ((d.left, 0), args)
  | some (.fixed n) => .ok ((d.left, n), args)
  | some .argument => do
    let (n, args) ← nextWhole args
    if n + widthLimit < -1 ∨ widthLimit < n then throw (.template .starWidthOutOfRange)
    return ((d.left || n < 0, if n.natAbs ≤ widthLimit then n.natAbs else 0), args)

/-- The precision of a directive, with the arguments after it. A negative one from the arguments is
zero. -/
def Directive.settlePrecision (d : Directive) (args : List Value) :
    Except Failure (Option Nat × List Value) :=
  match d.precision with
  | none => .ok (none, args)
  | some (.fixed n) => .ok (some n, args)
  | some .argument => do
    let (n, args) ← nextWhole args
    if n + precisionLimit < -1 ∨ precisionLimit < n then throw (.template .starPrecisionOutOfRange)
    return (some n.toNat, args)

/-- A directive with its sizes settled, and the arguments after them. -/
def Directive.settle (d : Directive) (args : List Value) :
    Except Failure (Shape × List Value) := do
  let ((left, width), args) ← d.settleWidth args
  let (precision, args) ← d.settlePrecision args
  let shape : Shape :=
    { left, width, precision, plus := d.plus, blank := d.blank, alternate := d.alternate,
      zero := d.zero }
  return (shape, args)

/-- The text of pieces filled with arguments. -/
def fillPieces : List Piece → List Value → Except Failure (List Char)
  | [], [] => .ok []
  | [], _ :: _ => .error (.template .leftover)
  | .literal c :: rest, args => do return c :: (← fillPieces rest args)
  | .broken d fault :: _, args => do
    let _ ← d.settle args
    throw (.template fault)
  | .directive d conversion position :: rest, args => do
    let (shape, args) ← d.settle args
    match args with
    | [] => throw (.template .tooFew)
    | v :: args =>
      let text ← shape.write conversion position v
      return text ++ (← fillPieces rest args)

/-- The text of a template filled with arguments. -/
def fill (template : String) (args : List Value) : Except Failure String := do
  return String.ofList (← fillPieces (pieces template) args)

end ContextLog.Template
