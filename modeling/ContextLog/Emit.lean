import ContextLog.Dispatch
/-!
# Ways to send an entry

An entry is sent by a function named for its level, by one that takes the level, by a logger that is
bound to a context, or by a builder that has collected fields. All of them are one dispatch.
-/

namespace ContextLog

/-- How many dispatches may stand inside each other. -/
def nestingLimit : Nat := 200

/-- Sends an entry. -/
def send (call : Call) : Session Unit := dispatch nestingLimit call

/-- The functions that are named for a level. `print` is another name for `info`. -/
inductive Method
  | debug
  | info
  | print
  | warn
  | error
  | fatal
  | panic
  deriving DecidableEq, Repr, Inhabited

namespace Method

/-- Every method. -/
def all : List Method := [debug, info, print, warn, error, fatal, panic]

/-- The name of a method. -/
def name : Method → String
  | debug => "debug"
  | info => "info"
  | print => "print"
  | warn => "warn"
  | error => "error"
  | fatal => "fatal"
  | panic => "panic"

/-- The level of the entries that a method sends. -/
def level : Method → Level
  | debug => .debug
  | info => .info
  | print => .info
  | warn => .warn
  | error => .error
  | fatal => .fatal
  | panic => .panic

end Method

/-- Sends an entry through a context by the function of a level. -/
def emit (m : Method) (context : Option ContextRef) (args : List Value) : Session Unit :=
  send { context, level := .level m.level, args }

/-- Sends an entry through a context at a level. -/
def log (context : Option ContextRef) (level : Value) (args : List Value) : Session Unit := do
  let l ← Session.lift (Level.ofValue level)
  send { context, level := .level l, args }

/-! ## Loggers -/

/-- A logger, bound to a context or to the default one. -/
structure Logger where
  context : Option ContextRef := none
  deriving Repr, Inhabited

namespace Logger

/-- The representation of a logger. -/
def repr (l : Logger) (s : Store) : Except Failure String := do
  return "Logger(" ++ (← s.contextText l.context) ++ ")"

/-- Sends an entry by the rules of `emit`. -/
def print (l : Logger) (m : Method) (args : List Value) : Session Unit := emit m l.context args

/-- Sends an entry made from a template, without which it fails. -/
def printf (l : Logger) (m : Method) (args : List Value) : Session Unit :=
  match args with
  | [] => throw (.call (.missing ("Logger." ++ m.name ++ "f") "template"))
  | template :: rest => send { context := l.context, level := .level m.level, args := template :: rest }

/-- Sends an entry that shows all its arguments with spaces between. -/
def println (l : Logger) (m : Method) (args : List Value) : Session Unit :=
  send { context := l.context, level := .level m.level, args, templated := false }

end Logger

/-! ## Builders -/

/-- Fields that are collected before they are sent, in a mapping of their own. -/
structure Entry where
  fields : MappingRef
  deriving DecidableEq, Repr, Inhabited

namespace Entry

/-- The field that holds the text of an error. -/
def errorKey : Value := .str "error"

/-- A builder with a copy of some fields. -/
def new (fields : Handle) : Session Entry := do return ⟨← Session.newCopy fields⟩

/-- A builder with one field. -/
def ofField (key value : Value) : Session Entry := do
  Session.checkKey key
  return ⟨← Session.newMapping (Fields.empty.set key value)⟩

/-- What has been collected. -/
def collected (e : Entry) : Session Fields := do return (← get).mapping e.fields

/-- Adds a field. -/
def withField (e : Entry) (key value : Value) : Session Unit := do
  Session.checkKey key
  Session.setMapping e.fields ((← e.collected).set key value)

/-- Adds fields one after the other, as far as they can be read. -/
def withFields (e : Entry) (fields : Handle) : Session Unit := do
  let s ← get
  let (result, updated) := (s.supplied fields).addTo (s.mapping e.fields)
  Session.setMapping e.fields updated
  Session.lift result

/-- Adds the text of an error. -/
def withError (e : Entry) (error : Value) : Session Unit := do
  let text ← Session.lift error.shown
  e.withField errorKey (.str text)

/-- A builder with the text of an error. -/
def ofError (error : Value) : Session Entry := do
  let e ← new .nothing
  e.withError error
  return e

/-- The representation of a builder. -/
def repr (e : Entry) (s : Store) : Except Failure String := do
  return "Entry(" ++ (← Value.reprDict (s.mapping e.fields).entries) ++ ")"

/-- Sends an entry with what has been collected by the function of a level. -/
def emit (e : Entry) (m : Method) (context : Option ContextRef) (args : List Value) : Session Unit :=
  send { context, level := .level m.level, fields := .live e.fields, args }

/-- Sends an entry with what has been collected at a level. -/
def log (e : Entry) (context : Option ContextRef) (level : Value) (args : List Value) :
    Session Unit := do
  let l ← Session.lift (Level.ofValue level)
  send { context, level := .level l, fields := .live e.fields, args }

end Entry

/-! ## A failure on request -/

/-- The message of a failure on request. -/
def failureText : String := "i should fail"

/-- Sends an entry at the level `panic` to an appender, or to one that is made for it. -/
def failOnPurpose (appender : Option AppenderRef) : Session Unit := do
  let a ← match appender with
    | some a => pure a
    | none => Session.newAppender (.recording [] [])
  let c ← Session.newContext { level := .level .panic, appender := some a }
  send { context := some c, level := .level .panic, args := [.str failureText] }

end ContextLog
