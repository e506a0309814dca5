import ContextLog.Defaults
import ContextLog.Signature
/-!
# Field sources and what they run

A context may add fields to each of its entries: fixed ones, ones made afresh for each entry, or ones
made from the entry itself. The latter two call a producer, which is a program: it edits the fields
it is given, writes fields of its own, and may send entries itself, change the defaults or raise an
error on the way.
-/

namespace ContextLog

/-- The number of a mapping in the store. -/
structure MappingRef where
  index : Nat
  deriving DecidableEq, Repr, Inhabited

/-- The number of a producer in the store. -/
structure ProducerRef where
  index : Nat
  deriving DecidableEq, Repr, Inhabited

/-- Where a producer sends an entry: to the default context, or to the one of a name. -/
inductive Destination
  | default
  | context (c : ContextRef)
  | named (name : String)
  deriving DecidableEq, Repr, Inhabited

/-- One step of a producer. The fields that it is given are those of the entry; its own ones are the
output. -/
inductive Action
  /-- Moves a field to the output if it is there. -/
  | pop (key out : Value)
  /-- Moves a field to the output, and fails if it is not there. -/
  | mustPop (key out : Value)
  | put (key value : Value)
  | clear
  | output (key value : Value)
  | level (out : Value)
  | argumentCount (out : Value)
  | arguments (out : Value)
  | fieldCount (out : Value)
  | fieldKeys (out : Value)
  /-- A request value of the context. -/
  | contextValue (key out : Value)
  /-- How often the producer has been called. -/
  | callCount (out : Value)
  /-- Sends an entry with fields of its own, given by their value. -/
  | dispatch (target : Destination) (level : Value) (fields : Supplied) (args : List Value)
  | configure (changes : List Change)
  | reset (environment : Environment)
  | raise (error : Value)
  /-- Ends with no output at all. -/
  | giveNothing
  /-- Ends with the fields of the entry themselves as the output. -/
  | giveFields
  deriving Repr, Inhabited

/-- A function that contributes fields. -/
structure Producer where
  /-- Its parameters, if they can be told. -/
  signature : Option Signature
  program : List Action
  typeName : String
  representation : String
  /-- The parameters that a call has to fit, if there are any. -/
  parameters : Option Signature := signature
  /-- Its name where a call does not fit. -/
  name : String := typeName
  /-- Built-in functions have their own wordings for a call that does not fit. -/
  isBuiltIn : Bool := false
  /-- Its entries, if it is a mapping that can be called. -/
  asMapping : Option Fields := none
  /-- How often it has been called. -/
  calls : Nat := 0
  deriving Repr, Inhabited

/-- What may stand where a context keeps its field source. -/
inductive Source
  | value (v : Value)
  | mapping (m : MappingRef)
  | producer (p : ProducerRef)
  /-- Fixed fields. -/
  | static (m : MappingRef)
  /-- Fields made by a call without arguments. -/
  | lazy (of : Source)
  /-- Fields made by a call with the context, the level, the fields and the arguments. -/
  | contextual (of : Source)
  deriving Repr, Inhabited

namespace Source

/-- Is there no source? -/
def isAbsent : Source → Bool
  | value .none => true
  | _ => false

/-- Does the source work on the fields of the entry? -/
def isContextual : Source → Bool
  | contextual _ => true
  | _ => false

end Source

/-- Fields as they are handed from one part to the next: the very mapping, so that an edit of it is
seen by everyone who holds it. -/
inductive Handle
  | nothing
  | live (m : MappingRef)
  /-- The empty mapping that nobody may change. -/
  | vacant
  | other (v : Value)
  deriving Repr, Inhabited

end ContextLog
