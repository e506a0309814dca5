import ContextLog.Appender
/-!
# The store

All that a run of calls can change or look up: the mappings that are shared, contexts, producers,
appenders, the defaults, the journal and the standard streams. A `Session` is a computation on the
store that may fail; what it has changed before it fails stays changed.

References into the store are never taken back, so a reference that was handed out stays good
(`Store.newMapping`, `Store.newContext`).
-/

namespace ContextLog

/-- A standard stream. -/
structure Channel where
  text : String := ""
  /-- What happens when it is flushed, if that goes wrong. -/
  flushFailure : Option Failure := none
  deriving Repr, Inhabited

/-- All that calls can change or look up. -/
structure Store where
  mappings : List Fields := []
  /-- The first context is the empty one. -/
  contexts : List Context := [{}]
  /-- The names by which producers find contexts. -/
  names : List (String × ContextRef) := []
  producers : List Producer := []
  appenders : List Appender := []
  defaults : Defaults := {}
  journal : List Report := []
  /-- The calls of appenders so far, also those that failed. They are kept to speak about; nothing
  reads them. -/
  deliveries : List Delivery := []
  stdout : Option Channel := some {}
  stderr : Option Channel := some {}
  /-- Calls are made on a thread other than the main one. -/
  onWorker : Bool := false
  deriving Repr, Inhabited

/-- A computation on the store that may fail. -/
abbrev Session := EStateM Failure Store

namespace Store

/-- The fields of a mapping. -/
def mapping (s : Store) (m : MappingRef) : Fields := s.mappings[m.index]?.getD .empty

/-- The context of a number. -/
def context (s : Store) (c : ContextRef) : Context := s.contexts[c.index]?.getD {}

/-- The producer of a number. -/
def producer (s : Store) (p : ProducerRef) : Producer := s.producers[p.index]?.getD default

/-- The appender of a number. -/
def appender (s : Store) (a : AppenderRef) : Appender := s.appenders[a.index]?.getD (.plain .none)

/-- What a handle holds at the moment. -/
def supplied (s : Store) : Handle → Supplied
  | .nothing => .nothing
  | .live m => .fields (s.mapping m)
  | .vacant => .fields .empty
  | .other v => .ofValue v

/-- Does a handle hold anything at the moment? -/
def isPresent (s : Store) (h : Handle) : Bool := (s.supplied h).isPresent

/-- The name of the type of what a handle holds. -/
def typeName (s : Store) : Handle → String
  | .vacant => "mappingproxy"
  | h => (s.supplied h).typeName

/-- The context of a name. -/
def named? (s : Store) (name : String) : Option ContextRef := s.names.lookup name

end Store

namespace Session

/-- A computation that does not need the store. -/
def lift {α : Type} (r : Except Failure α) : Session α :=
  match r with
  | .ok a => pure a
  | .error f => throw f

/-- Adds reports to the journal. -/
def report (rs : List Report) : Session Unit :=
  modify fun s => { s with journal := s.journal ++ rs }

/-- Puts a mapping into the store. -/
def newMapping (f : Fields) : Session MappingRef :=
  modifyGet fun s => (⟨s.mappings.length⟩, { s with mappings := s.mappings ++ [f] })

/-- Replaces what a mapping holds. -/
def setMapping (m : MappingRef) (f : Fields) : Session Unit :=
  modify fun s => { s with mappings := s.mappings.set m.index f }

/-- Puts a context into the store. -/
def newContext (c : Context) : Session ContextRef :=
  modifyGet fun s => (⟨s.contexts.length⟩, { s with contexts := s.contexts ++ [c] })

/-- Puts a producer into the store. -/
def newProducer (p : Producer) : Session ProducerRef :=
  modifyGet fun s => (⟨s.producers.length⟩, { s with producers := s.producers ++ [p] })

/-- Puts an appender into the store. -/
def newAppender (a : Appender) : Session AppenderRef :=
  modifyGet fun s => (⟨s.appenders.length⟩, { s with appenders := s.appenders ++ [a] })

/-- Replaces an appender by what has become of it. -/
def setAppender (r : AppenderRef) (a : Appender) : Session Unit :=
  modify fun s => { s with appenders := s.appenders.set r.index a }

/-- Notes that an appender is called. -/
def note (d : Delivery) : Session Unit :=
  modify fun s => { s with deliveries := s.deliveries ++ [d] }

/-- Refuses a value that cannot be a key. -/
def checkKey (k : Value) : Session Unit :=
  match k.mutableType? with
  | some type => throw (.mapping (.unhashable type))
  | none => pure ()

/-- A copy of what a handle holds. -/
def copy (h : Handle) : Session Fields := do
  lift ((← get).supplied h).copy

/-- A new mapping with what a handle holds, or with nothing if that is empty. -/
def newCopy (h : Handle) : Session MappingRef := do
  newMapping (← lift ((← get).supplied h).copyIfPresent)

end Session

end ContextLog
