import ContextLog.Store.Basic
import ContextLog.Line
/-!
# Delivering an entry

What each kind of appender does with an entry. A recording appender notes the context before it
copies the fields, and an editing one changes the very fields that it was handed once it has kept
its copy.
-/

namespace ContextLog

/-- Makes one change to the fields that a handle stands for. -/
def applyEdit (fields : Handle) (edit : Edit) : Session Unit := do
  let type := (← get).typeName fields
  match fields, edit with
  | .live m, .set k v => do
    Session.checkKey k
    Session.setMapping m (((← get).mapping m).set k v)
  | .live m, .pop k => do
    Session.checkKey k
    Session.setMapping m (((← get).mapping m).erase k)
  | .other (.list _), .set _ _ => throw (.notAnIndex type)
  | .other (.list _), .pop _ => throw (.call (.atMostOne "pop" 2))
  | _, .set _ _ => throw (.readOnlyItem type)
  | _, .pop _ => throw (.noAttribute type "pop")

/-- Keeps an entry in memory. -/
def keepRecord (remake : List (Option ContextRef) → List Record → Appender) (r : AppenderRef)
    (ctx : Option ContextRef) (level : Value) (fields : Handle) (msg : Value) : Session Unit := do
  let a := (← get).appender r
  Session.setAppender r (remake (a.contexts ++ [ctx]) a.records)
  let kept ← Session.copy fields
  Session.setAppender r (remake (a.contexts ++ [ctx]) (a.records ++ [⟨level, kept, msg⟩]))

/-- Raises the error of a back end, if there is one. -/
def raiseAny : Option Value → Except Failure Unit
  | some error => throw error.raise
  | none => .ok ()

/-- Binds fields to a structured logger, if there are any. They are bound by name, so they need texts as keys. -/
def StructuredLogger.bindFields (logger : StructuredLogger) (fields : Supplied) : Except Failure Fields := do
  if !fields.isPresent then return .empty
  match fields with
  | .fields f =>
    unless f.keys.all (·.isText) do throw (.call .namesNotText)
    raiseAny (logger.bind f)
    return f
  | other => throw (.call (.notAMapping logger.callee other.typeName))

/-- The method of a structured logger for a level. -/
def methodFor (level : Value) : Except Failure String :=
  match level.mutableType?, level.level? with
  | some type, _ => .error (.mapping (.unhashable type))
  | none, some l => .ok l.methodName
  | none, none => .error (.missingKey level)

/-- What an appender does with an entry that it is handed. -/
def receive (r : AppenderRef) (ctx : Option ContextRef) (level : Value) (fields : Handle)
    (msg : Value) : Session Unit := do
  let s ← get
  match s.appender r with
  | .recording _ _ => keepRecord .recording r ctx level fields msg
  | .editing edits _ _ =>
    keepRecord (.editing edits) r ctx level fields msg
    edits.forM (applyEdit fields)
  | .stream text =>
    let line ← Session.lift (formatLine level (s.supplied fields) msg)
    Session.setAppender r (.stream (text ++ line))
  | .console =>
    match s.stdout with
    | none => throw (.noAttribute "NoneType" "write")
    | some channel =>
      let line ← Session.lift (formatLine level (s.supplied fields) msg)
      set { s with stdout := some { channel with text := channel.text ++ line } }
  | .numbered threshold records =>
    match level with
    | .level l =>
      let context ← Session.copy fields
      if threshold ≤ l.backendNumber then
        let message ← Session.lift msg.shown
        Session.setAppender r
          (.numbered threshold (records ++ [⟨l.backendNumber, message, context⟩]))
    | v => throw (.noAttribute v.typeName "to_logging")
  | .structured logger records =>
    let bound ← Session.lift (logger.bindFields (s.supplied fields))
    let method ← Session.lift (methodFor level)
    Session.setAppender r (.structured logger (records ++ [⟨method, bound, msg⟩]))
    Session.lift (raiseAny (logger.call method bound msg))
  | .broken error => throw error.raise
  | .plain (.list _) => throw (.call (.exactlyOne "list.append" 4))
  | .plain v => throw (.noAttribute v.typeName "append")

/-- Hands an entry to an appender. -/
def append (r : AppenderRef) (ctx : Option ContextRef) (level : Value) (fields : Handle)
    (msg : Value) : Session Unit := do
  Session.note ⟨r, ctx, level, (← get).supplied fields, msg⟩
  receive r ctx level fields msg

/-- The messages of the entries that an appender keeps, if it is of a kind that keeps them. -/
def keptMessages (r : AppenderRef) : Session (List Value) := do
  let a := (← get).appender r
  if a.keepsRecords then return a.messages
  else throw (.noAttribute a.typeName "messages")

/-- Makes an appender forget the entries that it keeps, if it is of a kind that keeps them. -/
def clearRecords (r : AppenderRef) : Session Unit := do
  let a := (← get).appender r
  if a.keepsRecords then Session.setAppender r a.clear
  else throw (.noAttribute a.typeName "clear")

end ContextLog
