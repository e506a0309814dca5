import ContextLog.Fields.Supplied
import ContextLog.Message
/-!
# Reports about the log itself

What the library has to say about its own work goes into a journal and not through an appender:
arguments that do not fit their template, settings that are ignored, changes of the defaults, and, on
request, every entry on its way to an appender.
-/

namespace ContextLog

/-- How a report is graded. -/
inductive Grade
  | debug
  | info
  deriving DecidableEq, Repr, Inhabited

/-- The name of a grade. -/
def Grade.name : Grade → String
  | .debug => "DEBUG"
  | .info => "INFO"

/-- One report: what it is about, and the particulars. -/
structure Report where
  grade : Grade
  message : String
  context : Fields
  deriving Repr, Inhabited

/-- Fields with texts as keys. -/
def Fields.named (es : List (String × Value)) : Fields :=
  .ofList (es.map fun e => (.str e.1, e.2))

namespace Report

/-- The arguments of a template did not fit it. -/
def mismatch (m : Mismatch) : Report where
  grade := .debug
  message := "template_mismatch"
  context := .named
    [("template", .text m.template), ("arguments", .int m.arguments), ("error", .str m.error)]

/-- A level in the environment is ignored. -/
def levelIgnored (value : Value) (error : String) : Report where
  grade := .debug
  message := "env_level_ignored"
  context := .named [("value", value), ("error", .str error)]

/-- A switch in the environment is ignored. -/
def debugIgnored (value : Value) : Report where
  grade := .debug
  message := "env_debug_ignored"
  context := .named [("value", value)]

/-- The defaults have changed; the settings are shown by their representations. -/
def configured (settings : List (String × String)) : Report where
  grade := .info
  message := "defaults_configured"
  context := .named (settings.map fun s => (s.1, .str s.2))

/-- What is said about an entry on its way to an appender. -/
def event (appender : String) (level : Value) (fields : Supplied) (msg : Value) :
    Except Failure Fields := do
  let level ← level.shown
  let fields ← fields.copyIfPresent
  return .named
    [("appender", .str appender), ("level", .str level), ("fields", fields.toValue), ("msg", msg)]

/-- An entry is about to reach an appender. -/
def append (event : Fields) : Report where
  grade := .debug
  message := "append"
  context := event

/-- A report on request. Its particulars are passed by name, and one name is taken. -/
def custom (grade : Grade) (message : Value) (particulars : Supplied) : Except Failure Report := do
  let callee := match grade with
    | .debug => "log_debug"
    | .info => "log_info"
  let context ← match particulars with
    | .fields f => pure f
    | s => throw (.call (.notAMapping ("lib_context_log.observability." ++ callee) s.typeName))
  unless context.keys.all (·.isText) do throw (.call .namesNotText)
  if (context.get? (.str "message")).isSome then throw (.call (.repeated callee "message"))
  return { grade, message := ← message.shown, context }

end Report

end ContextLog
