import ContextLog.Environment
import ContextLog.Journal
import ContextLog.Level.Coerce
/-!
# Defaults

What an entry falls back on when its context says nothing: a threshold, an appender, a context and
whether entries are traced. The environment seeds the threshold and the tracing; a setting there that
means nothing is reported and ignored.
-/

namespace ContextLog

/-- The number of an appender in the store. -/
structure AppenderRef where
  index : Nat
  deriving DecidableEq, Repr, Inhabited

/-- The number of a context in the store. -/
structure ContextRef where
  index : Nat
  deriving DecidableEq, Repr, Inhabited

/-- The empty context, which always uses the default appender. -/
def ContextRef.background : ContextRef := ⟨0⟩

/-- What an entry falls back on. -/
structure Defaults where
  level : Level := .error
  appender : Option AppenderRef := none
  context : Option ContextRef := some .background
  /-- Entries are traced while this value counts as true. -/
  debug : Value := .bool false
  deriving Repr, Inhabited

namespace Defaults

/-- The threshold that the environment sets, and the report on one that means nothing. -/
def seedLevel (setting : Option Value) : Level × List Report :=
  match setting with
  | none | some .none => (.error, [])
  | some v =>
    match v.shown with
    | .error _ => (.error, [])
    | .ok text =>
      match Level.ofWord? text with
      | some l => (l, [])
      | none => (.error, [.levelIgnored v ("invalid level: " ++ text)])

/-- Whether the environment asks for tracing, and the report on an answer that means nothing. -/
def seedDebug (setting : Option Value) : Bool × List Report :=
  match setting with
  | none | some .none => (false, [])
  | some v =>
    if v.quantity?.isSome then (v.isTrue, []) else (false, [.debugIgnored v])

/-- The defaults that an environment seeds, and what there is to report. -/
def ofEnvironment (environment : Environment) : Defaults × List Report :=
  let settings := environment.load Environment.settingsPrefix
  let (level, levelReports) := seedLevel (settings.get? (.str "level"))
  let (debug, debugReports) := seedDebug (settings.get? (.str "debug"))
  ({ level, debug := .bool debug }, levelReports ++ debugReports)

end Defaults

/-- A new value for one of the defaults, by the name of the setting. -/
inductive Change
  | level (v : Value)
  | appender (a : Option AppenderRef)
  | context (c : Option ContextRef)
  | debug (v : Value)
  /-- A setting that does not exist. -/
  | unknown (name : String)
  deriving Repr, Inhabited

namespace Change

/-- The name of the setting. -/
def name : Change → String
  | level _ => "level"
  | appender _ => "appender"
  | context _ => "context"
  | debug _ => "debug"
  | unknown n => n

/-- One change per setting: the last one, in the place of the first. -/
def distinct (changes : List Change) : List Change :=
  changes.foldl (fun kept c =>
    if kept.any (·.name = c.name) then kept.map fun k => if k.name = c.name then c else k
    else kept ++ [c]) []

/-- Refuses a threshold that is no level. -/
def checkLevel : Change → Except Failure Unit
  | level v => do
    let _ ← Level.ofValue v
    return ()
  | _ => .ok ()

/-- The defaults with the change made. -/
def apply (d : Defaults) : Change → Except Failure Defaults
  | level v => do return { d with level := ← Level.ofValue v }
  | appender a => .ok { d with appender := a }
  | context c => .ok { d with context := c }
  | debug v => .ok { d with debug := v }
  | unknown n => .error (.call (.unknownName "Defaults.__init__" n))

/-- The defaults with all changes made, or a failure. A threshold that is no level is refused before
a setting that does not exist. -/
def applyAll (d : Defaults) (changes : List Change) : Except Failure Defaults := do
  let changes := distinct changes
  let _ ← changes.mapM checkLevel
  changes.foldlM apply d

end Change

end ContextLog
