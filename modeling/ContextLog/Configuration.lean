import ContextLog.Store.Shown
/-!
# Changing the defaults

The defaults are replaced as a whole: by a copy with some settings changed, or by what the
environment seeds. A change is reported with the representations of the new settings.
-/

namespace ContextLog

/-- The representation of a new setting. -/
def Store.changeText (s : Store) : Change → Except Failure String
  | .level v => match v.level? with
    | some l => .ok l.repr
    | none => v.repr
  | .appender a => s.appenderText a
  | .context c => s.contextText c
  | .debug v => v.repr
  | .unknown n => .ok n

/-- Changes some of the defaults. If a setting is refused, nothing is changed. -/
def configure (changes : List Change) : Session Unit := do
  let changes := Change.distinct changes
  let defaults ← Session.lift (Change.applyAll (← get).defaults changes)
  modify fun s => { s with defaults }
  let s ← get
  let shown ← Session.lift (changes.mapM fun c => do return (c.name, ← s.changeText c))
  Session.report [.configured shown]

/-- Replaces the defaults by those that an environment seeds. -/
def resetDefaults (environment : Environment) : Session Unit := do
  let (defaults, reports) := Defaults.ofEnvironment environment
  modify fun s => { s with defaults }
  Session.report reports

end ContextLog
