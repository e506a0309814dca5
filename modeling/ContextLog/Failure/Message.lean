import ContextLog.Value.Shown
/-!
# The wording of failures

`Failure.message` gives the text that a failure carries. It fails itself when a value that it shows
has no text.
-/

namespace ContextLog

/-- What a missing appender is reported as. -/
def missingAppenderText : String :=
  "no appender attached to the context and no default appender configured"

namespace MappingFault

/-- The wording of a fault. -/
def message : MappingFault → String
  | .notIterable type => "'" ++ type ++ "' object is not iterable"
  | .notAContainer type => "argument of type '" ++ type ++ "' is not iterable"
  | .noSize type => "object of type '" ++ type ++ "' has no len()"
  | .notAPair i n =>
    "dictionary update sequence element #" ++ toString i ++ " has length " ++ toString n ++
      "; 2 is required"
  | .notASequence i =>
    "cannot convert dictionary update sequence element #" ++ toString i ++ " to a sequence"
  | .unhashable type => "unhashable type: '" ++ type ++ "'"

end MappingFault

namespace CallFault

/-- The wording of a fault. -/
def message : CallFault → String
  | .missing callee p => callee ++ "() missing 1 required positional argument: '" ++ p ++ "'"
  | .extra callee takes given =>
    callee ++ "() takes " ++ takes ++ " but " ++ toString given ++ " were given"
  | .repeated callee p => callee ++ "() got multiple values for argument '" ++ p ++ "'"
  | .unknownName callee p => callee ++ "() got an unexpected keyword argument '" ++ p ++ "'"
  | .namesNotText => "keywords must be strings"
  | .notAMapping callee type =>
    callee ++ "() argument after ** must be a mapping, not " ++ type
  | .noneAtAll callee given =>
    callee ++ "() takes no arguments (" ++ toString given ++ " given)"
  | .exactlyOne callee given =>
    callee ++ "() takes exactly one argument (" ++ toString given ++ " given)"
  | .atMostOne callee given =>
    callee ++ " expected at most 1 argument, got " ++ toString given
  | .atLeastOne callee given =>
    callee ++ " expected at least 1 argument, got " ++ toString given
  | .notCallable type => "'" ++ type ++ "' object is not callable"

end CallFault

namespace Failure

/-- The wording of a failure. -/
def message : Failure → Except Failure String
  | raised error => error.shown
  | notAnError => .ok "exceptions must derive from BaseException"
  | notALevel shown => .ok (shown ++ " is not a valid Level")
  | invalidLevel _ shown => .ok ("invalid level: " ++ shown)
  | thresholdType type =>
    .ok ("'>' not supported between instances of 'Level' and '" ++ type ++ "'")
  | missingAppender => .ok missingAppenderText
  | panicked text => .ok text.display
  | exited => .ok "1"
  | ended => .ok "1"
  | numeralTooLong =>
    .ok ("Exceeds the limit (4300 digits) for integer string conversion; " ++
      "use sys.set_int_max_str_digits() to increase the limit")
  | displayNotText => .ok "__str__ returned non-string (type int)"
  | unordered types =>
    .ok ("'<' not supported between instances of '" ++ types.left ++ "' and '" ++ types.right ++ "'")
  | mapping fault => .ok fault.message
  | call fault => .ok fault.message
  | template fault => .ok fault.message
  | padding fault => .ok fault.message
  | missingKey key => key.repr
  | noAttribute type name => .ok ("'" ++ type ++ "' object has no attribute '" ++ name ++ "'")
  | readOnlyItem type => .ok ("'" ++ type ++ "' object does not support item assignment")
  | readOnlyAttribute name => .ok ("cannot assign to field '" ++ name ++ "'")
  | foreignAttribute => .ok "super(type, obj): obj must be an instance or subtype of type"
  | notAnIndex type => .ok (type ++ " indices must be integers or slices, not str")
  | unsupportedSource type => .ok ("unsupported field source type: " ++ type)
  | unsupportedArity =>
    .ok ("field source callable must accept either no arguments or " ++
      "(ctx, level, fields, args)")
  | nestedTooDeeply => .ok "maximum recursion depth exceeded"
  | unknownContext name => .ok name

end Failure

end ContextLog
