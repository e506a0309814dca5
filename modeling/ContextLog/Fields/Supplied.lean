import ContextLog.Fields.OfValue
import ContextLog.Value.Shown
/-!
# Fields as a caller supplies them

Where fields are expected a caller gives nothing, a mapping, or some other value. What counts as
empty is skipped; the rest is read as a mapping where a copy of it is needed, and refused where it
is used as one.
-/

namespace ContextLog

/-- What a caller gives where fields are expected. -/
inductive Supplied
  | nothing
  | fields (f : Fields)
  | other (v : Value)
  deriving Repr, Inhabited

namespace Supplied

/-- A value in the place of fields. -/
def ofValue : Value → Supplied
  | .none => .nothing
  | .dict entries => .fields (Fields.ofList entries)
  | v => .other v

/-- The supplied fields as a value. -/
def toValue : Supplied → Value
  | nothing => .none
  | fields f => f.toValue
  | other v => v

/-- Does the supplied value hold anything? -/
def isPresent : Supplied → Bool
  | nothing => false
  | fields f => !f.isEmpty
  | other v => v.isTrue

/-- The name of the type of what is supplied. -/
def typeName : Supplied → String
  | nothing => "NoneType"
  | fields _ => "dict"
  | other v => v.typeName

/-- A mapping with the supplied entries. -/
def copy : Supplied → Except Failure Fields
  | nothing => .error (.mapping (.notIterable "NoneType"))
  | fields f => .ok f
  | other v => match Fields.ofValue? v with
    | .ok f => .ok f
    | .error fault => .error (.mapping fault)

/-- A mapping with the supplied entries, or none of them if what is supplied is empty. -/
def copyIfPresent (s : Supplied) : Except Failure Fields :=
  if s.isPresent then s.copy else .ok .empty

/-- The fields with what is supplied set on them, as far as it can be read. -/
def addTo (s : Supplied) (f : Fields) : Except Failure Unit × Fields :=
  match s with
  | nothing => (.error (.mapping (.notIterable "NoneType")), f)
  | fields g => (.ok (), f.overlay g)
  | other v => match f.update v with
    | (.ok (), f) => (.ok (), f)
    | (.error fault, f) => (.error (.mapping fault), f)

/-- The supplied fields as a mapping, for a use that takes nothing else. -/
def mapping (s : Supplied) (need : String) : Except Failure Fields :=
  match s with
  | fields f => .ok f
  | s => .error (.noAttribute s.typeName need)

end Supplied

/-- Which of two sides a merge answers with. -/
inductive MergeSide
  | explicit
  | produced
  | new
  deriving DecidableEq, Repr, Inhabited

namespace Supplied

/-- The two sides as one: the explicit side if nothing is produced, the produced side if nothing is
explicit, and else a new mapping with the produced entries set on the explicit ones. -/
def merge (explicit produced : Supplied) : Except Failure (MergeSide × Supplied) :=
  if !produced.isPresent then .ok (.explicit, explicit)
  else if !explicit.isPresent then .ok (.produced, produced)
  else do
    let base ← explicit.copy
    match produced.addTo base with
    | (.ok (), merged) => return (.new, .fields merged)
    | (.error failure, _) => throw failure

end Supplied

end ContextLog
