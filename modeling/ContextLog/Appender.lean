import ContextLog.Context
/-!
# Appenders

An appender receives finished entries. The kinds here keep them in memory, write them as lines, hand
them to a numbered or a structured logging back end, or fail. Any value can stand in the place of an
appender; most are found out when an entry reaches them.
-/

namespace ContextLog

/-- An entry as an appender keeps it. -/
structure Record where
  level : Value
  fields : Fields
  msg : Value
  deriving Repr, Inhabited

/-- An entry as a numbered logging back end gets it. -/
structure NumberedRecord where
  number : Nat
  message : String
  context : Fields
  deriving Repr, Inhabited

/-- An entry as a structured logging back end gets it: the call of a method with the message, on a logger that fields
are bound to. -/
structure StructuredRecord where
  method : String
  bound : Fields
  msg : Value
  deriving Repr, Inhabited

/-- A structured logging back end: what it raises, if anything, when fields are bound to it and when a method of it is
called with a message. -/
structure StructuredLogger where
  /-- The name of what binds fields. -/
  callee : String := "bind"
  bind : Fields → Option Value := fun _ => none
  call : String → Fields → Value → Option Value := fun _ _ _ => none
  deriving Inhabited

instance : Repr StructuredLogger := ⟨fun logger n => reprPrec logger.callee n⟩

/-- An entry as it was handed to an appender, with what its fields held at that moment. -/
structure Delivery where
  appender : AppenderRef
  context : Option ContextRef
  level : Value
  fields : Supplied
  msg : Value
  deriving Repr, Inhabited

/-- A change that an appender makes to the very fields that it was handed. -/
inductive Edit
  | set (key value : Value)
  | pop (key : Value)
  deriving Repr, Inhabited

/-- An appender with what it has received. -/
inductive Appender
  | recording (contexts : List (Option ContextRef)) (records : List Record)
  /-- Records, and then changes the fields that it was handed. -/
  | editing (edits : List Edit) (contexts : List (Option ContextRef)) (records : List Record)
  /-- Writes lines to a text of its own. -/
  | stream (text : String)
  /-- Writes lines to the standard output. -/
  | console
  /-- Hands entries to a back end that drops those below a number. -/
  | numbered (threshold : Int) (records : List NumberedRecord)
  /-- Hands entries to a back end that fields are bound to. -/
  | structured (logger : StructuredLogger) (records : List StructuredRecord)
  | broken (error : Value)
  | plain (v : Value)
  deriving Repr, Inhabited

namespace Appender

/-- The name of an appender's type. -/
def typeName : Appender → String
  | recording _ _ => "RecordingAppender"
  | editing _ _ _ => "Mutating"
  | stream _ | console => "StreamAppender"
  | numbered _ _ => "LoggingAppender"
  | structured _ _ => "StructlogAppender"
  | broken _ => "Broken"
  | plain v => v.typeName

/-- The module that a type belongs to, where representations show it. -/
def home : Appender → String
  | recording _ _ => "testing."
  | stream _ | console => "adapters.stream.writer."
  | numbered _ _ => "adapters.stdlib.handler."
  | structured _ _ => "adapters.structured.binding."
  | _ => ""

/-- The representation of the appender with a number. -/
def repr (a : Appender) (r : AppenderRef) : Except Failure String :=
  match a with
  | editing _ _ _ => .ok "<mutating>"
  | broken _ => .ok "<broken>"
  | plain v => v.repr
  | a =>
    .ok ("<lib_context_log." ++ a.home ++ a.typeName ++ " object at 0x" ++
      String.ofList (Nat.toDigits 16 r.index) ++ ">")

/-- Can entries be appended to it, as far as its type tells? -/
def isAppender : Appender → Bool
  | plain (.list _) => true
  | plain _ => false
  | _ => true

/-- Does the appender keep its entries in memory? -/
def keepsRecords : Appender → Bool
  | recording _ _ | editing _ _ _ => true
  | _ => false

/-- The entries that an appender keeps. -/
def records : Appender → List Record
  | recording _ rs | editing _ _ rs => rs
  | _ => []

/-- The contexts of the entries that an appender keeps. -/
def contexts : Appender → List (Option ContextRef)
  | recording cs _ | editing _ cs _ => cs
  | _ => []

/-- The messages of the entries that an appender keeps. -/
def messages (a : Appender) : List Value := a.records.map (·.msg)

/-- The appender with nothing kept. -/
def clear : Appender → Appender
  | recording _ _ => recording [] []
  | editing edits _ _ => editing edits [] []
  | a => a

end Appender

end ContextLog
