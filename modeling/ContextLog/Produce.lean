import ContextLog.Configuration
/-!
# Running producers

A producer is run one action after the other. It sees the entry through its scope: the context, the
level, the very fields of the entry and its arguments. What it writes is collected apart and becomes
a new mapping in the end. An entry that it sends itself goes through `nested`, so that running a
producer is defined before dispatching is.
-/

namespace ContextLog

/-- An entry on its way: where it goes, how severe it is, its fields and its arguments. -/
structure Call where
  context : Option ContextRef := none
  level : Value
  fields : Handle := .nothing
  args : List Value := []
  templated : Bool := true
  deriving Repr, Inhabited

/-- What a producer is called with, if anything. -/
structure Scope where
  context : Option ContextRef := none
  level : Value := .none
  fields : Handle := .nothing
  args : List Value := []
  deriving Repr, Inhabited

namespace Produce

/-- Writes to the output. -/
def write (out : Fields) (key value : Value) : Session Fields := do
  Session.checkKey key
  return out.set key value

/-- The fields of the entry, for a use of them as a mapping. -/
def editable (fields : Handle) (fault : String → Failure) : Session (MappingRef × Fields) := do
  let s ← get
  match fields with
  | .live m => return (m, s.mapping m)
  | h => throw (fault (s.typeName h))

/-- Moves a field to the output; `missing` says what happens if it is not there. -/
def move (fields : Handle) (fault : String → Failure) (key out : Value) (output : Fields)
    (missing : Session Fields) : Session Fields := do
  let (m, f) ← editable fields fault
  Session.checkKey key
  match f.get? key with
  | some v =>
    Session.setMapping m (f.erase key)
    write output out v
  | none => missing

/-- The context that a producer sends an entry to. -/
def destination : Destination → Session (Option ContextRef)
  | .default => return none
  | .context c => return some c
  | .named name => do
    match (← get).named? name with
    | some c => return some c
    | none => throw (.unknownContext name)

/-- The fields of an entry that a producer sends, as a mapping of their own. -/
def sentFields : Supplied → Session Handle
  | .nothing => return .nothing
  | .fields f => do return .live (← Session.newMapping f)
  | .other v => return .other v

/-- Runs one action, which changes the output. -/
def act (nested : Call → Session Unit) (p : ProducerRef) (scope : Scope) (output : Fields) :
    Action → Session Fields
  | .pop key out =>
    move scope.fields (fun t => .mapping (.notAContainer t)) key out output (pure output)
  | .mustPop key out =>
    move scope.fields (.noAttribute · "pop") key out output (throw (.missingKey key))
  | .put key value => do
    let (m, f) ← editable scope.fields .readOnlyItem
    Session.checkKey key
    Session.setMapping m (f.set key value)
    return output
  | .clear => do
    let (m, _) ← editable scope.fields (.noAttribute · "clear")
    Session.setMapping m .empty
    return output
  | .output key value => write output key value
  | .level out => do write output out (.str (← Session.lift scope.level.shown))
  | .argumentCount out => write output out (.int scope.args.length)
  | .arguments out => write output out (.list scope.args)
  | .fieldCount out => do
    let (_, f) ← editable scope.fields fun t => .mapping (.noSize t)
    write output out (.int f.size)
  | .fieldKeys out => do
    let (_, f) ← editable scope.fields fun t => .mapping (.notIterable t)
    write output out (.list f.keys)
  | .contextValue key out => do
    match scope.context with
    | none => throw (.noAttribute "NoneType" "value")
    | some c =>
      let v ← Session.lift (((← get).context c).value key .none)
      write output out v
  | .callCount out => do write output out (.int ((← get).producer p).calls)
  | .dispatch target level fields args => do
    let context ← destination target
    let fields ← sentFields fields
    nested { context, level, fields, args }
    return output
  | .configure changes => do
    configure changes
    return output
  | .reset environment => do
    resetDefaults environment
    return output
  | .raise error => throw error.raise
  | .giveNothing | .giveFields => return output

/-- Runs actions up to the end or up to one that ends the run. -/
def run (nested : Call → Session Unit) (p : ProducerRef) (scope : Scope) (output : Fields) :
    List Action → Session Handle
  | [] => do return .live (← Session.newMapping output)
  | .giveNothing :: _ => return .nothing
  | .giveFields :: _ => return scope.fields
  | action :: rest => do
    let output ← act nested p scope output action
    run nested p scope output rest

/-- Counts a call of a producer and runs it. -/
def call (nested : Call → Session Unit) (p : ProducerRef) (scope : Scope) : Session Handle := do
  let producer := (← get).producer p
  modify fun s =>
    { s with producers := s.producers.set p.index { producer with calls := producer.calls + 1 } }
  run nested p scope .empty producer.program

/-- How a call does not fit the parameters of a producer. -/
def callFault (producer : Producer) (parameters : Signature) (count : Nat) : CallFault :=
  let name := producer.name
  if producer.isBuiltIn then
    match parameters with
    | [] => .noneAtAll name count
    | [p] => if p.isOptional then .atMostOne name count else .exactlyOne name count
    | p :: _ => if p.isOptional then .atMostOne name count else .atLeastOne name count
  else
    match (parameters.drop count).find? (!·.isOptional) with
    | some p => .missing name p.name
    | none => .extra name (toString parameters.positionalCount ++ " positional arguments") count

/-- Calls what a source holds, with as many arguments as are given. -/
def invoke (nested : Call → Session Unit) (of : Source) (count : Nat) (scope : Scope) :
    Session Handle := do
  match of with
  | .producer p =>
    let producer := (← get).producer p
    match producer.parameters with
    | some parameters =>
      if parameters.accepts count then call nested p scope
      else throw (.call (callFault producer parameters count))
    | none => call nested p scope
  | of => throw (.call (.notCallable ((← get).sourceType of)))

end Produce

/-- The fields that a source contributes to an entry. -/
def resolveSource (nested : Call → Session Unit) (source : Source) (scope : Scope) :
    Session Handle := do
  match source with
  | .static m => return .live m
  | .lazy of => Produce.invoke nested of 0 { }
  | .contextual of => Produce.invoke nested of 4 scope
  | source => throw (.noAttribute ((← get).sourceType source) "resolve")

/-- The two sides of an entry's fields as one, and which side that is. Without fields on one side it
is the other side itself; only if both sides have some is there a new mapping. -/
def mergeHandles (explicit produced : Handle) : Session (MergeSide × Handle) := do
  let s ← get
  let (side, fields) ← Session.lift ((s.supplied explicit).merge (s.supplied produced))
  match side, fields with
  | .explicit, _ => return (.explicit, explicit)
  | .produced, _ => return (.produced, produced)
  | .new, .fields f => return (.new, .live (← Session.newMapping f))
  | .new, other => return (.new, .other other.toValue)

/-- The fields of an entry: the explicit ones, with those of the source over them. -/
def resolveFields (nested : Call → Session Unit) (source : Source) (scope : Scope) :
    Session Handle := do
  if source.isAbsent then return scope.fields
  let produced ← resolveSource nested source scope
  let (_, fields) ← mergeHandles scope.fields produced
  return fields

/-- The entries of an object that is a mapping. -/
def Store.fixedFields (s : Store) : Source → Except Failure Fields
  | .mapping m => .ok (s.mapping m)
  | .value v => (Supplied.ofValue v).copy
  | .producer p =>
    match (s.producer p).asMapping with
    | some f => .ok f
    | none => .error (.mapping (.notIterable (s.producer p).typeName))
  | object => .error (.mapping (.notIterable (s.sourceType object)))

/-- A source of fixed fields. -/
def makeStatic (object : Source) : Session Source := do
  let fields ← Session.lift ((← get).fixedFields object)
  return .static (← Session.newMapping fields)

/-- The field source that an object is taken for: a source is itself, a mapping gives fixed fields,
also if it can be called, and any other producer is called with as many arguments as it takes, four
or none. -/
def asSource (object : Source) : Session Source := do
  match object with
  | .static _ | .lazy _ | .contextual _ => return object
  | .mapping _ | .value (.dict _) => makeStatic object
  | .value v => throw (.unsupportedSource v.typeName)
  | .producer p =>
    let producer := (← get).producer p
    if producer.asMapping.isSome then makeStatic object
    else
      match producer.signature with
      | none => throw .unsupportedArity
      | some signature =>
        if signature.accepts 4 then return .contextual object
        else if signature.accepts 0 then return .lazy object
        else throw .unsupportedArity

end ContextLog
