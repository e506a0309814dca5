/-!
# Signatures

The parameters of a function, and with how many positional arguments it can be called. A function
with some arguments already bound has a signature of its own: what is bound by position is gone, and
from the first parameter bound by name on all are passed by name only.
-/

namespace ContextLog

/-- How a parameter takes its argument. -/
inductive Passing
  | positional
  /-- By position or by name. -/
  | standard
  /-- All further positional arguments. -/
  | restPositional
  | named
  /-- All further named arguments. -/
  | restNamed
  deriving DecidableEq, Repr, Inhabited

/-- A parameter of a function. -/
structure Parameter where
  name : String
  passing : Passing
  optional : Bool := false
  deriving DecidableEq, Repr, Inhabited

/-- The parameters of a function in order. -/
abbrev Signature := List Parameter

namespace Parameter

/-- Can a call leave the parameter out? -/
def isOptional (p : Parameter) : Bool :=
  p.optional || p.passing = .restPositional || p.passing = .restNamed

/-- Does the parameter take an argument by position? -/
def isPositional (p : Parameter) : Bool := p.passing = .positional || p.passing = .standard

/-- Can the parameter be given by name? -/
def isNamed (p : Parameter) : Bool := p.passing = .standard || p.passing = .named

end Parameter

namespace Signature

/-- Can a function be called with this many positional arguments and none by name? -/
def accepts : Signature → Nat → Bool
  | [], n => n = 0
  | p :: rest, 0 => p.isOptional && accepts rest 0
  | p :: rest, n + 1 =>
    match p.passing with
    | .positional | .standard => accepts rest n
    | .restPositional => accepts rest 0
    | .named | .restNamed => false

/-- How many leading parameters take positional arguments one by one. -/
def positionalCount (s : Signature) : Nat := (s.takeWhile Parameter.isPositional).length

/-- Does a parameter take all further positional arguments? -/
def hasRestPositional (s : Signature) : Bool := s.any (·.passing = .restPositional)

/-- Does a parameter take all further named arguments? -/
def hasRestNamed (s : Signature) : Bool := s.any (·.passing = .restNamed)

/-- Can this many positional arguments and these names be bound in advance? A name must belong to a
parameter that takes names and is not bound by position, or to none if any name is taken. -/
def canBind (s : Signature) (count : Nat) (names : List String) : Bool :=
  let bound := s.take (min count s.positionalCount)
  let free := s.drop bound.length
  (count ≤ s.positionalCount || s.hasRestPositional) &&
    names.all fun name =>
      !(bound.any fun p => p.name = name && p.passing = .standard) &&
        match free.find? (·.name = name) with
        | some p => p.isNamed || (p.passing ≠ .positional && s.hasRestNamed)
        | none => s.hasRestNamed

/-- The parameters behind those bound by position. From the first one bound by name on (`byName`)
they are passed by name. -/
def bindNames (names : List String) (byName : Bool) : Signature → Signature
  | [] => []
  | p :: rest =>
    let isBound := names.contains p.name && p.isNamed
    let byName := byName || (isBound && p.passing = .standard)
    let p := { p with optional := p.optional || isBound }
    match byName, p.passing with
    | true, .standard => { p with passing := .named } :: bindNames names byName rest
    | true, .restPositional => bindNames names byName rest
    | _, _ => p :: bindNames names byName rest

/-- The signature of a function with some arguments bound in advance, if they can be. -/
def bind (s : Signature) (count : Nat) (names : List String) : Option Signature :=
  if s.canBind count names then
    some (bindNames names false (s.drop (min count s.positionalCount)))
  else none

end Signature

end ContextLog
