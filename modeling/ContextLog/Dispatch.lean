import ContextLog.Produce
import ContextLog.Append
/-!
# Dispatching an entry

An entry is first admitted or not (`Store.admission`): its level must be one, it must pass the threshold
of its context, and there must be an appender. That is decided by the store alone and changes
nothing. An admitted entry gets its fields and its message, is reported if entries are traced, and
goes to its appender. In the end an entry at the level `fatal` ends the process and one at the level
`panic` raises its message.

A producer may dispatch entries itself. `dispatchWith` leaves open how it does so; `dispatch` closes
the circle up to a number of nested calls.
-/

namespace ContextLog

/-- Whether an entry goes on, and if so with what. -/
inductive Admission
  | refused (failure : Failure)
  | filtered
  | admitted (context : ContextRef) (level : Level) (appender : AppenderRef)
  deriving Repr, Inhabited

/-- Is a level less severe than a threshold? The threshold is a number or else it is no threshold. -/
def Level.exceeds (l : Level) (threshold : Value) : Except Failure Bool :=
  match threshold.quantity? with
  | some q => .ok ((Quantity.whole l.rank).compare? q = some .gt)
  | none => .error (.thresholdType threshold.typeName)

namespace Store

/-- The threshold of a context, or the default one. -/
def levelOf (s : Store) (d : Defaults) (c : ContextRef) : Value :=
  match (s.context c).level with
  | .none => .level d.level
  | v => v

/-- The appender of a context, or the default one. The empty context always has the default one. -/
def appenderOf (s : Store) (d : Defaults) (c : ContextRef) : Option AppenderRef :=
  if c = .background then d.appender else (s.context c).appender.or d.appender

/-- The field source of a context. -/
def sourceOf (s : Store) (c : ContextRef) : Source := (s.context c).source

/-- Does an entry go on? Nothing but its context and its level counts. -/
def admission (s : Store) (context : Option ContextRef) (level : Value) : Admission :=
  match Level.ofValue level with
  | .error failure => .refused failure
  | .ok l =>
    match context.or s.defaults.context with
    | none => .refused (.noAttribute "NoneType" "level")
    | some c =>
      match l.exceeds (s.levelOf s.defaults c) with
      | .error failure => .refused failure
      | .ok true => .filtered
      | .ok false =>
        match s.appenderOf s.defaults c with
        | none => .refused .missingAppender
        | some a => .admitted c l a

end Store

namespace Dispatch

/-- The explicit fields that the field source works on: a copy for a source that may change them,
the very fields for any other, and the unchangeable empty mapping for none. -/
def explicitFields (source : Source) (fields : Handle) : Session Handle := do
  if source.isContextual then return .live (← Session.newCopy fields)
  else if (← get).isPresent fields then return fields
  else return .vacant

/-- The fields of an admitted entry: its explicit ones with those of the context's source. -/
def entryFields (nested : Call → Session Unit) (c : ContextRef) (level : Level) (call : Call) :
    Session Handle := do
  let source := (← get).sourceOf c
  let explicit ← explicitFields source call.fields
  resolveFields nested source
    { context := some c, level := .level level, fields := explicit, args := call.args }

/-- The message of an entry, after a report on arguments that do not fit their template. -/
def message (args : List Value) (templated : Bool) : Session Text := do
  let (mismatch, result) := formatMessage args templated
  Session.report (mismatch.toList.map .mismatch)
  Session.lift result

/-- Reports an entry on its way to an appender. -/
def trace (a : AppenderRef) (level : Value) (fields : Handle) (msg : Value) : Session Unit := do
  let s ← get
  let event ← Session.lift (Report.event (s.appender a).typeName level (s.supplied fields) msg)
  Session.report [.append event]

/-- Flushes a standard stream if it is there. -/
def flush : Option Channel → Session Unit
  | none => pure ()
  | some channel =>
    match channel.flushFailure with
    | some failure => throw failure
    | none => pure ()

/-- Ends the process: by a failure that a host can catch on the main thread, at once on any other,
where the standard streams are flushed first. -/
def endProcess : Session Unit := do
  let s ← get
  if s.onWorker then
    flush s.stdout
    flush s.stderr
    throw .ended
  else throw .exited

/-- What follows the delivery of an entry. -/
def followUp (level : Level) (msg : Text) : Session Unit :=
  match level with
  | .fatal => endProcess
  | .panic => throw (.panicked msg)
  | _ => pure ()

/-- Takes an admitted entry to its appender. -/
def deliver (nested : Call → Session Unit) (c : ContextRef) (level : Level) (a : AppenderRef)
    (call : Call) : Session Unit := do
  let s ← get
  let fields ← entryFields nested c level call
  let msg ← message call.args call.templated
  if s.defaults.debug.isTrue then trace a (.level level) fields (.text msg)
  append a (some c) (.level level) fields (.text msg)
  followUp level msg

end Dispatch

/-- Dispatches an entry; `nested` dispatches those that its field source sends. -/
def dispatchWith (nested : Call → Session Unit) (call : Call) : Session Unit := do
  match (← get).admission call.context call.level with
  | .refused failure => throw failure
  | .filtered => pure ()
  | .admitted c level a => Dispatch.deliver nested c level a call

/-- Dispatches an entry, with at most `depth` calls inside each other. -/
def dispatch : Nat → Call → Session Unit
  | 0, _ => throw .nestedTooDeeply
  | depth + 1, call => dispatchWith (dispatch depth) call

end ContextLog
