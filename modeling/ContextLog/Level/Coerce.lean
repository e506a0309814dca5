import ContextLog.Value.Shown
import ContextLog.Text.Case
/-!
# Levels from values and words

A value is a level when it is a number equal to a level's rank. A word names a level in any letter
case. Anything else is refused, by two different failures.
-/

namespace ContextLog.Level

/-- The level that a value is. -/
def ofValue (v : Value) : Except Failure Level :=
  match v.level? with
  | some l => .ok l
  | none => do throw (.notALevel (← v.repr))

/-- The level that a word names in any letter case. -/
def ofWord? (word : String) : Option Level := words.lookup (Text.lower word)

/-- The level that the text of a value names. -/
def parse (v : Value) : Except Failure Level := do
  let shown ← v.shown
  match ofWord? shown with
  | some l => return l
  | none => throw (.invalidLevel v shown)

/-- The text of a level fitted into a width. -/
def format (l : Level) (spec : String) : Except Failure String :=
  match Text.padName l.name spec with
  | .ok s => .ok s
  | .error fault => .error (.padding fault)

end ContextLog.Level
