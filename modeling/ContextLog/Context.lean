import ContextLog.Source
/-!
# Contexts

A context travels with a request and says how its entries are logged: a threshold, an appender, a
field source, and values of the request. A context never changes; deriving one makes a new context
that differs in a single respect.
-/

namespace ContextLog

/-- How the entries of a request are logged. The threshold is a level or nothing, unless a caller put
something else in its place. -/
structure Context where
  level : Value := .none
  appender : Option AppenderRef := none
  source : Source := .value .none
  values : Fields := .empty
  deriving Repr, Inhabited

namespace Context

/-- The context with another threshold. -/
def withLevel (c : Context) (l : Level) : Context := { c with level := .level l }

/-- The context with another appender, or with none. -/
def withAppender (c : Context) (a : Option AppenderRef) : Context := { c with appender := a }

/-- The context with another field source. -/
def withSource (c : Context) (s : Source) : Context := { c with source := s }

/-- The context with one more request value. -/
def withValue (c : Context) (key value : Value) : Except Failure Context :=
  match key.mutableType? with
  | some type => .error (.mapping (.unhashable type))
  | none => .ok { c with values := c.values.set key value }

/-- The request value under a key. -/
def value (c : Context) (key default : Value) : Except Failure Value :=
  match key.mutableType? with
  | some type => .error (.mapping (.unhashable type))
  | none => .ok ((c.values.get? key).getD default)

/-- The attributes of a context. -/
def attributes : List String := ["level", "appender", "field_source", "values"]

/-- Why an attribute of a context cannot be set. -/
def refusal (name : String) : Failure :=
  if name ∈ attributes then .readOnlyAttribute name else .foreignAttribute

end Context

end ContextLog
