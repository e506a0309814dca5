import ContextLog.Fields.Supplied
import ContextLog.Fields.Sorted
/-!
# Lines

An entry as one line of text: its level in brackets, its message, and behind them its fields as a
mapping sorted by key, if it has any.
-/

namespace ContextLog

/-- The line of an entry. The fields are sorted first, so keys without an order between them are
reported before a level or a message that has no text. -/
def formatLine (level : Value) (fields : Supplied) (msg : Value) : Except Failure String := do
  if !fields.isPresent then
    let level ← level.shown
    let msg ← msg.shown
    return "[" ++ level ++ "] " ++ msg ++ "\n"
  else
    let fields ← fields.mapping "items"
    let entries ← match fields.sorted with
      | .ok entries => pure entries
      | .error types => throw (.unordered types)
    let level ← level.shown
    let msg ← msg.shown
    let shown ← Value.reprDict entries
    return "[" ++ level ++ "] " ++ msg ++ " " ++ shown ++ "\n"

end ContextLog
