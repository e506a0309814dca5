import ContextLog.Value.Basic
import ContextLog.Text.Padding
import ContextLog.Template.Fault
/-!
# Failures

Everything that can keep a call from returning: a cause each, with the kind of error it is. Their
wording is in `ContextLog.Failure.Message`, because some of it shows values.
-/

namespace ContextLog

/-- Why a value cannot be read as a mapping. -/
inductive MappingFault
  | notIterable (type : String)
  | notAContainer (type : String)
  | noSize (type : String)
  /-- An item of the given length stands where a pair of key and value should. -/
  | notAPair (position length : Nat)
  | notASequence (position : Nat)
  | unhashable (type : String)
  deriving DecidableEq, Repr, Inhabited

/-- Why a call of a function does not fit its parameters. -/
inductive CallFault
  | missing (callee parameter : String)
  /-- `takes` is the wording of how many arguments would have been right. -/
  | extra (callee takes : String) (given : Nat)
  | repeated (callee parameter : String)
  | unknownName (callee parameter : String)
  | namesNotText
  | notAMapping (callee type : String)
  | noneAtAll (callee : String) (given : Nat)
  | exactlyOne (callee : String) (given : Nat)
  | atMostOne (callee : String) (given : Nat)
  | atLeastOne (callee : String) (given : Nat)
  | notCallable (type : String)
  deriving DecidableEq, Repr, Inhabited

/-- Why a call did not return. -/
inductive Failure
  /-- A caller's error, raised by a producer, an appender or a display. -/
  | raised (error : Value)
  /-- Something that is no error was raised. -/
  | notAnError
  | notALevel (shown : String)
  /-- The text names no level. -/
  | invalidLevel (text : Value) (shown : String)
  /-- A threshold of this type cannot be compared with a level. -/
  | thresholdType (type : String)
  | missingAppender
  /-- An entry at the level `panic` has been delivered. -/
  | panicked (message : Text)
  /-- An entry at the level `fatal` has been delivered. -/
  | exited
  /-- The process has ended in a worker. -/
  | ended
  | numeralTooLong
  /-- A display gave something that is no text. -/
  | displayNotText
  | unordered (types : Value.Unordered)
  | mapping (fault : MappingFault)
  | call (fault : CallFault)
  | template (fault : Template.Fault)
  | padding (fault : Text.PaddingFault)
  | missingKey (key : Value)
  | noAttribute (type name : String)
  | readOnlyItem (type : String)
  | readOnlyAttribute (name : String)
  /-- The attribute to be set is not one of those that a context has. -/
  | foreignAttribute
  /-- A sequence of this type is not indexed by keys. -/
  | notAnIndex (type : String)
  | unsupportedSource (type : String)
  | unsupportedArity
  /-- Calls are nested too deeply. -/
  | nestedTooDeeply
  /-- No context goes by this name. -/
  | unknownContext (name : String)
  deriving Repr, Inhabited

namespace Failure

/-- The kind of a failure. -/
def kind : Failure → ErrorKind
  | raised (.error kind _ _ _) => kind
  | raised _ => .general
  | notALevel _ | numeralTooLong | padding _ | mapping (.notAPair _ _) => .value
  | notAnError | thresholdType _ | displayNotText | unordered _ | mapping _ | call _
  | readOnlyItem _ | foreignAttribute | notAnIndex _ | unsupportedSource _ | unsupportedArity => .type
  | invalidLevel _ _ => .invalidLevel
  | missingAppender => .missingAppender
  | panicked _ => .panic
  | exited | ended => .exit
  | template fault => fault.kind
  | missingKey _ => .key
  | noAttribute _ _ => .noAttribute
  | readOnlyAttribute _ => .frozen
  | nestedTooDeeply => .recursion
  | unknownContext _ => .general

/-- Is the failure one of type or of value? Such a failure inside a template is a mismatch, from
which formatting recovers. -/
def isMismatch (f : Failure) : Bool := f.kind.isA .type || f.kind.isA .value

/-- The name of a failure's kind. -/
def name : Failure → String
  | raised error => error.typeName
  | ended => "_exit"
  | unknownContext _ => "UnknownId"
  | f => f.kind.name

end Failure

end ContextLog
