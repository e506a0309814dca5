import ContextLog.Store.Basic
/-!
# Representations of what the store holds

Appenders, field sources and contexts as text, for the journal and for a look at what a context
carries.
-/

namespace ContextLog.Store

/-- The representation of an appender, if there is one. -/
def appenderText (s : Store) : Option AppenderRef → Except Failure String
  | none => .ok "None"
  | some a => (s.appender a).repr a

/-- The name of the type of a field source. -/
def sourceType (s : Store) : Source → String
  | .value v => v.typeName
  | .mapping _ => "dict"
  | .producer p => (s.producer p).typeName
  | .static _ => "StaticFields"
  | .lazy _ => "LazyFields"
  | .contextual _ => "ContextualFields"

/-- The representation of a field source. -/
def sourceText (s : Store) : Source → Except Failure String
  | .value v => v.repr
  | .mapping m => Value.reprDict (s.mapping m).entries
  | .producer p => .ok (s.producer p).representation
  | .static m => do return "StaticFields(fields=" ++ (← Value.reprDict (s.mapping m).entries) ++ ")"
  | .lazy of => do return "LazyFields(producer=" ++ (← s.sourceText of) ++ ")"
  | .contextual of => do return "ContextualFields(producer=" ++ (← s.sourceText of) ++ ")"

/-- The representation of a context, if there is one. -/
def contextText (s : Store) : Option ContextRef → Except Failure String
  | none => .ok "None"
  | some r => do
    let c := s.context r
    let level ← c.level.repr
    let appender ← s.appenderText c.appender
    let source ← s.sourceText c.source
    let values ← Value.reprDict c.values.entries
    return "LogContext(level=" ++ level ++ ", appender=" ++ appender ++ ", field_source=" ++ source ++
      ", values=mappingproxy(" ++ values ++ "))"

end ContextLog.Store
