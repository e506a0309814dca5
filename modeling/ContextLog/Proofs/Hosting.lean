import ContextLog.Emit
import ContextLog.Proofs.Calls
import ContextLog.Proofs.Reentry
import ContextLog.Proofs.Renaming
/-!
# A host and its mappings

A host has mappings of its own. It passes them to contexts, fixed fields and builders, and goes on changing them in
between. `Host.run` is what comes of the requests of a host, one after the other, in either of two ways: the host
passes its mappings themselves, or copies of them as they are at that moment (`Transfer`).

Whatever the requests are, the mappings that builders and fixed fields work on are none of the host's own ones
(`Host.run_fits`), and the sinks change by what they are handed, unless an appender is cleared
(`Request.perform_fed`).
-/

namespace ContextLog

open Session

/-! ## Requests -/

/-- What a host has made: mappings of its own, objects that may become the source of a context, and builders. It
speaks of them by their numbers. -/
structure Desk where
  mappings : List MappingRef := []
  sources : List Source := []
  builders : List Entry := []

/-- What a host gives where fields are expected. -/
inductive Given
  | nothing
  | mapping (i : Nat)
  | other (v : Value)

/-- What a host gives where a field source is expected. -/
inductive Object
  | value (v : Value)
  | mapping (i : Nat)
  | producer (p : ProducerRef)
  | made (i : Nat)

/-- How a host derives a context from another one. -/
inductive Deriving
  | level (v : Value)
  | appender (a : Option AppenderRef)
  | fields (object : Object)
  | value (key value : Value)

/-- How a host goes on with a builder. -/
inductive Collecting
  | field (key value : Value)
  | fields (given : Given)
  | error (error : Value)

/-- What a host asks for. -/
inductive Request
  /-- A mapping of its own. -/
  | make (f : Fields)
  /-- To change such a mapping, in any way. -/
  | change (i : Nat) (edit : Fields → Fields)
  /-- Fixed fields, and the two other kinds of sources. -/
  | static (object : Object)
  | lazy (object : Object)
  | contextual (object : Object)
  /-- A context with these attributes. Its source is taken as it is. -/
  | context (level : Value) (appender : Option AppenderRef) (source : Object) (values : Given)
  | derive (c : ContextRef) (d : Deriving)
  | value (c : ContextRef) (key default : Value)
  | build (given : Given)
  | collect (i : Nat) (collecting : Collecting)
  /-- What a builder has collected, as a mapping of the host's own. -/
  | collected (i : Nat)
  /-- To send an entry with fields of the host's own, or with those of a builder. -/
  | dispatch (context : Option ContextRef) (level : Value) (given : Given) (args : List Value) (templated : Bool)
  | emit (i : Nat) (context : Option ContextRef) (level : Value) (args : List Value)
  /-- To hand an entry to an appender without a dispatch. -/
  | append (r : AppenderRef) (context : Option ContextRef) (level : Value) (given : Given) (msg : Value)
  | records (r : AppenderRef)
  | clear (r : AppenderRef)
  | adjust (adjustment : Adjustment)

/-- What a host learns from a request. -/
inductive Answer
  | done
  | fields (f : Fields)
  | value (v : Value)
  | context (c : ContextRef)
  | records (contexts : List (Option ContextRef)) (records : List Record)
  | failed (f : Failure)

/-! ## Passing -/

/-- How a host passes a mapping of its own: it passes the mapping itself, or a copy that it makes at that moment. -/
inductive Transfer
  | live
  | copied

namespace Transfer

/-- Passes a mapping. -/
def mapping (m : MappingRef) : Transfer → Session MappingRef
  | live => return m
  | copied => do Session.newMapping ((← get).mapping m)

/-- Passes what stands where fields are expected. -/
def handle (w : Transfer) : Handle → Session Handle
  | .live m => do return .live (← w.mapping m)
  | h => return h

/-- Passes what stands where a field source is expected. -/
def source (w : Transfer) : Source → Session Source
  | .mapping m => do return .mapping (← w.mapping m)
  | object => return object

end Transfer

namespace Desk

def withMapping (desk : Desk) (m : MappingRef) : Desk := { desk with mappings := desk.mappings ++ [m] }

def withSource (desk : Desk) (source : Source) : Desk := { desk with sources := desk.sources ++ [source] }

def withBuilder (desk : Desk) (e : Entry) : Desk := { desk with builders := desk.builders ++ [e] }

/-- What is given as fields. -/
def handle (desk : Desk) : Given → Handle
  | .nothing => .nothing
  | .mapping i => (desk.mappings[i]?.map .live).getD .nothing
  | .other v => .other v

/-- What is given as a field source. -/
def object (desk : Desk) : Object → Source
  | .value v => .value v
  | .mapping i => (desk.mappings[i]?.map .mapping).getD (.value .none)
  | .producer p => .producer p
  | .made i => desk.sources[i]?.getD (.value .none)

/-- A derivation, with a mapping of the host's own passed on. -/
def derivation (desk : Desk) (w : Transfer) : Deriving → Session Derivation
  | .level v => return .level v
  | .appender a => return .appender a
  | .fields object => do return .source (← w.source (desk.object object))
  | .value key v => return .value key v

/-- Works on a mapping of the host's own, if there is one of that number. -/
def onMapping (desk : Desk) (i : Nat) (f : MappingRef → Session Unit) : Session Unit :=
  (desk.mappings[i]?.map f).getD (pure ())

/-- Works on a builder, if there is one of that number. -/
def onBuilder (desk : Desk) (i : Nat) (f : Entry → Session Unit) : Session Unit :=
  (desk.builders[i]?.map f).getD (pure ())

/-- Goes on with a builder. -/
def collect (desk : Desk) (w : Transfer) (e : Entry) : Collecting → Session Unit
  | .field key v => e.withField key v
  | .fields given => do e.withFields (← w.handle (desk.handle given))
  | .error err => e.withError err

/-- What a builder has collected, if there is one of that number, and the mapping in which the host gets it. -/
def collected (desk : Desk) (i : Nat) : Session (Answer × Desk) :=
  let read (e : Entry) : Session (Answer × Desk) := do
    let f ← e.collected
    let m ← Session.newMapping f
    return (.fields f, desk.withMapping m)
  (desk.builders[i]?.map read).getD (pure (.done, desk))

end Desk

/-! ## Runs -/

namespace Request

/-- Answers a request. What is not on the desk is answered by doing nothing. -/
def perform (w : Transfer) (caught : Tolerance) (depth : Nat) (desk : Desk) : Request → Session (Answer × Desk)
  | make f => do
    let m ← Session.newMapping f
    return (.done, desk.withMapping m)
  | change i edit => do
    desk.onMapping i fun m => do Session.setMapping m (edit ((← get).mapping m))
    return (.done, desk)
  | static object => do
    let source ← makeStatic (← w.source (desk.object object))
    return (.done, desk.withSource source)
  | lazy object => return (.done, desk.withSource (.lazy (desk.object object)))
  | contextual object => return (.done, desk.withSource (.contextual (desk.object object)))
  | context level appender source values => do
    let values ← Session.copy (← w.handle (desk.handle values))
    let c ← Session.newContext { level, appender, source := desk.object source, values }
    return (.context c, desk)
  | derive c d => do
    let derivation ← desk.derivation w d
    let c ← Session.newContext (← derivation.apply ((← get).context c))
    return (.context c, desk)
  | value c key default => do
    let v ← Session.lift (((← get).context c).value key default)
    return (.value v, desk)
  | build given => do
    let e ← Entry.new (← w.handle (desk.handle given))
    return (.done, desk.withBuilder e)
  | collect i collecting => do
    desk.onBuilder i (desk.collect w · collecting)
    return (.done, desk)
  | collected i => desk.collected i
  | dispatch c level given args templated => do
    dispatchWithin caught depth { context := c, level, fields := desk.handle given, args, templated }
    return (.done, desk)
  | emit i c level args => do
    desk.onBuilder i fun e => dispatchWithin caught depth { context := c, level, fields := .live e.fields, args }
    return (.done, desk)
  | append r c level given msg => do
    ContextLog.append r c level (desk.handle given) msg
    return (.done, desk)
  | records r => do
    let a := (← get).appender r
    if a.keepsRecords then return (.records a.contexts a.records, desk)
    else throw (.noAttribute a.typeName "records")
  | clear r => do
    clearRecords r
    return (.done, desk)
  | adjust adjustment => do
    adjustment.perform
    return (.done, desk)

end Request

/-- A host at work, with what it has learned so far. -/
structure Host where
  store : Store
  desk : Desk := {}
  answers : List Answer := []

namespace Host

variable (w : Transfer) (caught : Tolerance) (depth : Nat)

/-- The host after one more request. A failure is caught, and what has been done before it stays done. -/
def step (h : Host) (request : Request) : Host :=
  match request.perform w caught depth h.desk h.store with
  | .ok (answer, desk) s => ⟨s, desk, h.answers ++ [answer]⟩
  | .error f s => ⟨s, h.desk, h.answers ++ [.failed f]⟩

/-- The host after some more requests. -/
def run (h : Host) (requests : List Request) : Host := requests.foldl (step w caught depth) h

theorem run_append (h : Host) (before after : List Request) :
    h.run w caught depth (before ++ after) = (h.run w caught depth before).run w caught depth after :=
  List.foldl_append

end Host

/-! ## What belongs to a host -/

/-- The mapping of the fixed fields that a source has, by itself or inside. -/
def Source.fixed? : Source → Option MappingRef
  | .static m => some m
  | .lazy of | .contextual of => of.fixed?
  | .value _ | .mapping _ | .producer _ => none

theorem Source.held?_of_fixed? {source : Source} {m : MappingRef} (h : source.fixed? = some m) :
    source.held? = some m := by
  induction source with
  | static m' => exact h
  | lazy of ih => exact ih h
  | contextual of ih => exact ih h
  | _ => cases h

variable {desk : Desk} {s s' : Store} {m : MappingRef} {w : Transfer} {caught : Tolerance} {depth : Nat}

namespace Desk

/-- The mappings that builders, fixed fields and contexts work on. -/
def Keeps (desk : Desk) (s : Store) (m : MappingRef) : Prop :=
  (∃ e ∈ desk.builders, e.fields = m) ∨ (∃ source ∈ desk.sources, source.fixed? = some m) ∨
    ∃ c ∈ s.contexts, c.source.fixed? = some m

/-- What is on a desk and in contexts is in the store, and the mappings of the host's own are none of those that
builders, fixed fields and contexts work on. -/
structure Fits (desk : Desk) (s : Store) : Prop where
  whole : s.IsWhole
  mappings : ∀ m ∈ desk.mappings, m.index < s.mappings.length
  sources : ∀ source ∈ desk.sources, ∀ m ∈ source.held?, m.index < s.mappings.length
  builders : ∀ e ∈ desk.builders, e.fields.index < s.mappings.length
  apart : ∀ m ∈ desk.mappings, ¬ desk.Keeps s m

/-- A source may be put on a desk, or into a context. -/
structure Takes (desk : Desk) (s : Store) (source : Source) : Prop where
  held : ∀ m ∈ source.held?, m.index < s.mappings.length
  apart : ∀ m ∈ source.fixed?, m ∉ desk.mappings

namespace Fits

theorem empty (hs : s.IsWhole) : Fits {} s where
  whole := hs
  mappings := nofun
  sources := nofun
  builders := nofun
  apart := nofun

theorem widens (h : desk.Fits s) (hw : s.Widens s') : desk.Fits s' where
  whole c hc m hm := Nat.lt_of_lt_of_le (h.whole c (hw.contexts ▸ hc) m hm) hw.room
  mappings m hm := Nat.lt_of_lt_of_le (h.mappings m hm) hw.room
  sources source hsource m hm := Nat.lt_of_lt_of_le (h.sources source hsource m hm) hw.room
  builders e he := Nat.lt_of_lt_of_le (h.builders e he) hw.room
  apart m hm hk := h.apart m hm (by
    unfold Keeps at hk ⊢
    rwa [hw.contexts] at hk)

theorem stable (desk : Desk) : Store.Stable (fun _ => True) (fun _ => True) desk.Fits where
  step h hstep := h.widens ((Store.Widens.stable _).step ⟨Nat.le_refl _, rfl⟩ hstep)
  fresh _ := trivial
  edits _ _ := .inr fun _ => trivial

theorem calm (desk : Desk) : Store.Calm (fun _ => True) desk.Fits := (stable desk).toSteady.calm

theorem lt_of_keeps (h : desk.Fits s) (hk : desk.Keeps s m) : m.index < s.mappings.length := by
  rcases hk with ⟨e, he, rfl⟩ | ⟨source, hsource, hm⟩ | ⟨c, hc, hm⟩
  · exact h.builders e he
  · exact h.sources source hsource m (Source.held?_of_fixed? hm)
  · exact h.whole c hc m (Source.held?_of_fixed? hm)

theorem withMapping (h : desk.Fits s) (hm : m.index < s.mappings.length) (hk : ¬ desk.Keeps s m) :
    (desk.withMapping m).Fits s where
  whole := h.whole
  mappings q hq := by
    rcases List.mem_append.1 hq with hq | hq
    · exact h.mappings q hq
    · rw [List.mem_singleton.1 hq]
      exact hm
  sources := h.sources
  builders := h.builders
  apart q hq := by
    rcases List.mem_append.1 hq with hq | hq
    · exact h.apart q hq
    · rw [List.mem_singleton.1 hq]
      exact hk

/-- A mapping that is made for the host is its own. -/
theorem allotted (h : desk.Fits s) (f : Fields) :
    (desk.withMapping ⟨s.mappings.length⟩).Fits { s with mappings := s.mappings ++ [f] } := by
  refine withMapping ((calm desk).allotted f h) ?_ fun hk => Nat.lt_irrefl _ (h.lt_of_keeps (s := s) hk)
  simp

theorem withSource (h : desk.Fits s) {source : Source} (ht : desk.Takes s source) :
    (desk.withSource source).Fits s where
  whole := h.whole
  mappings := h.mappings
  sources source' hsource' := by
    rcases List.mem_append.1 hsource' with hsource' | hsource'
    · exact h.sources source' hsource'
    · rw [List.mem_singleton.1 hsource']
      exact ht.held
  builders := h.builders
  apart m hm := by
    rintro (hk | ⟨source', hsource', hfixed⟩ | hk)
    · exact h.apart m hm (.inl hk)
    · rcases List.mem_append.1 hsource' with hsource' | hsource'
      · exact h.apart m hm (.inr (.inl ⟨source', hsource', hfixed⟩))
      · rw [List.mem_singleton.1 hsource'] at hfixed
        exact ht.apart m hfixed hm
    · exact h.apart m hm (.inr (.inr hk))

theorem withBuilder (h : desk.Fits s) {e : Entry} (he : e.fields.index < s.mappings.length)
    (hm : e.fields ∉ desk.mappings) : (desk.withBuilder e).Fits s where
  whole := h.whole
  mappings := h.mappings
  sources := h.sources
  builders e' he' := by
    rcases List.mem_append.1 he' with he' | he'
    · exact h.builders e' he'
    · rw [List.mem_singleton.1 he']
      exact he
  apart m hm' := by
    rintro (⟨e', he', rfl⟩ | hk)
    · rcases List.mem_append.1 he' with he' | he'
      · exact h.apart _ hm' (.inl ⟨e', he', rfl⟩)
      · rw [List.mem_singleton.1 he'] at hm'
        exact hm hm'
    · exact h.apart m hm' (.inr hk)

theorem withContext (h : desk.Fits s) {c : Context} (ht : desk.Takes s c.source) :
    desk.Fits { s with contexts := s.contexts ++ [c] } where
  whole c' hc' := by
    rcases List.mem_append.1 hc' with hc' | hc'
    · exact h.whole c' hc'
    · rw [List.mem_singleton.1 hc']
      exact ht.held
  mappings := h.mappings
  sources := h.sources
  builders := h.builders
  apart m hm := by
    rintro (hk | hk | ⟨c', hc', hfixed⟩)
    · exact h.apart m hm (.inl hk)
    · exact h.apart m hm (.inr (.inl hk))
    · rcases List.mem_append.1 hc' with hc' | hc'
      · exact h.apart m hm (.inr (.inr ⟨c', hc', hfixed⟩))
      · rw [List.mem_singleton.1 hc'] at hfixed
        exact ht.apart m hfixed hm

/-- What a host gives as a source may become one. -/
theorem takes_object (h : desk.Fits s) (object : Object) : desk.Takes s (desk.object object) := by
  have habsent : desk.Takes s (.value .none) := ⟨nofun, nofun⟩
  cases object with
  | value v => exact ⟨nofun, nofun⟩
  | producer p => exact ⟨nofun, nofun⟩
  | mapping i =>
    show desk.Takes s ((desk.mappings[i]?.map .mapping).getD (.value .none))
    cases hi : desk.mappings[i]? with
    | none => exact habsent
    | some m =>
      refine ⟨fun q hq => ?_, nofun⟩
      cases hq
      exact h.mappings m (List.mem_of_getElem? hi)
  | made i =>
    show desk.Takes s (desk.sources[i]?.getD (.value .none))
    cases hi : desk.sources[i]? with
    | none => exact habsent
    | some source =>
      have hsource := List.mem_of_getElem? hi
      exact ⟨h.sources source hsource, fun m hfixed hm => h.apart m hm (.inr (.inl ⟨source, hsource, hfixed⟩))⟩

theorem takes_context (h : desk.Fits s) (c : ContextRef) : desk.Takes s (s.context c).source := by
  unfold Store.context
  cases hc : s.contexts[c.index]? with
  | none => exact ⟨nofun, nofun⟩
  | some c' =>
    have hmem := List.mem_of_getElem? hc
    exact ⟨h.whole c' hmem, fun m hfixed hm => h.apart m hm (.inr (.inr ⟨c', hmem, hfixed⟩))⟩

end Fits

end Desk

/-! ## Every request keeps a host's mappings apart -/

theorem Store.Calm.roomy {owned : MappingRef → Prop} {I : Store → Prop} (hI : Store.Calm owned I) : Store.Roomy I :=
  fun _ f hs => hI.allotted f hs

/-- What is passed is in the store. -/
theorem Transfer.mapping_yields (h : desk.Fits s) (hm : m.index < s.mappings.length) (w : Transfer) :
    (w.mapping m).Yields s desk.Fits fun m' s' => m'.index < s'.mappings.length := by
  cases w with
  | live => exact ⟨h, hm⟩
  | copied =>
    refine .get ⟨(Desk.Fits.calm desk).allotted _ h, ?_⟩
    simp

section roomy

variable {I : Store → Prop}

theorem Transfer.mapping_roomy (hI : Store.Roomy I) (w : Transfer) (m : MappingRef) : (w.mapping m).Keeps I := by
  cases w with
  | live => exact .pure _
  | copied => exact .get fun s hs => newMapping_roomy hI _ s hs

theorem Transfer.handle_roomy (hI : Store.Roomy I) (w : Transfer) (handle : Handle) : (w.handle handle).Keeps I := by
  cases handle with
  | live m => exact .bind (w.mapping_roomy hI m) fun _ => .pure _
  | _ => exact .pure _

theorem Transfer.source_roomy (hI : Store.Roomy I) (w : Transfer) (object : Source) : (w.source object).Keeps I := by
  cases object with
  | mapping m => exact .bind (w.mapping_roomy hI m) fun _ => .pure _
  | _ => exact .pure _

theorem Desk.derivation_roomy (hI : Store.Roomy I) (w : Transfer) (d : Deriving) : (desk.derivation w d).Keeps I := by
  cases d with
  | fields object => exact .bind (w.source_roomy hI _) fun _ => .pure _
  | _ => exact .pure _

end roomy

theorem Transfer.source_yields (h : desk.Fits s) {object : Source} (ht : desk.Takes s object) (w : Transfer) :
    (w.source object).Yields s desk.Fits fun object' s' => desk.Takes s' object' := by
  cases object with
  | mapping m =>
    refine (w.mapping_yields h (ht.held m rfl)).bind fun m' s' hs' hm' => ⟨hs', fun q hq => ?_, nofun⟩
    cases hq
    exact hm'
  | _ => exact ⟨h, ht⟩

theorem makeStatic_yields (h : desk.Fits s) (object : Source) :
    (makeStatic object).Yields s desk.Fits fun source s' => desk.Takes s' source := by
  unfold makeStatic
  refine .get ?_
  refine Yields.lift_bind h fun f _ => ⟨(Desk.Fits.calm desk).allotted f h, fun m hm => ?_, fun m hm hmem => ?_⟩
  · cases hm
    simp
  · -- It is newer than all that is on the desk.
    cases hm
    exact Nat.lt_irrefl _ (h.mappings _ hmem)

theorem asSource_yields (h : desk.Fits s) {object : Source} (ht : desk.Takes s object) :
    (asSource object).Yields s desk.Fits fun source s' => desk.Takes s' source := by
  unfold asSource
  cases object with
  | mapping m => exact makeStatic_yields h _
  | value v =>
    cases v with
    | dict entries => exact makeStatic_yields h _
    | _ => exact h
  | producer p =>
    refine .get ?_
    by_cases hmapping : (s.producer p).asMapping.isSome
    · rw [if_pos hmapping]
      exact makeStatic_yields h _
    · rw [if_neg hmapping]
      cases (s.producer p).signature with
      | none => exact h
      | some signature =>
        dsimp only
        split
        · exact ⟨h, ht.held, ht.apart⟩
        · split
          · exact ⟨h, ht.held, ht.apart⟩
          · exact h
  | _ => exact ⟨h, ht⟩

theorem Desk.derivation_yields (h : desk.Fits s) (w : Transfer) (d : Deriving) :
    (desk.derivation w d).Yields s desk.Fits fun derivation s' =>
      ∀ object, derivation = .source object → desk.Takes s' object := by
  cases d with
  | fields object =>
    refine (w.source_yields h (h.takes_object object)).bind fun object' s' hs' ht => ⟨hs', ?_⟩
    rintro _ ⟨⟩
    exact ht
  | _ => exact ⟨h, nofun⟩

theorem Derivation.apply_yields (h : desk.Fits s) {c : Context} (hc : desk.Takes s c.source)
    {derivation : Derivation} (hd : ∀ object, derivation = .source object → desk.Takes s object) :
    (derivation.apply c).Yields s desk.Fits fun c' s' => desk.Takes s' c'.source := by
  cases derivation with
  | level v => exact .lift_bind h fun l _ => ⟨h, hc⟩
  | appender a => exact ⟨h, hc⟩
  | source object => exact (asSource_yields h (hd object rfl)).bind fun source s' hs' ht => ⟨hs', ht⟩
  | value key v =>
    refine .lift h fun c' hc' => ?_
    unfold Context.withValue at hc'
    split at hc'
    · cases hc'
    · cases hc'
      exact hc

theorem newContext_yields (h : desk.Fits s) {c : Context} (hc : desk.Takes s c.source) :
    (newContext c).Yields s desk.Fits fun _ _ => True := ⟨h.withContext hc, trivial⟩

/-- A builder works on a mapping that is new. -/
theorem Entry.new_yields (h : desk.Fits s) (handle : Handle) :
    (Entry.new handle).Yields s desk.Fits fun e s' =>
      e.fields.index < s'.mappings.length ∧ e.fields ∉ desk.mappings := by
  refine (newCopy_yields (Desk.Fits.calm desk) h handle).bind ?_
  rintro m s' hs' ⟨-, hindex, hlt, -⟩
  exact ⟨hs', hlt, fun hm => absurd (h.mappings m hm) (hindex ▸ Nat.lt_irrefl _)⟩

theorem Desk.onMapping_keeps {I : Store → Prop} {f : MappingRef → Session Unit}
    (hf : ∀ m ∈ desk.mappings, (f m).Keeps I) (i : Nat) : (desk.onMapping i f).Keeps I := by
  unfold onMapping
  cases hi : desk.mappings[i]? with
  | some m => exact hf m (List.mem_of_getElem? hi)
  | none => exact .pure _

theorem Desk.onBuilder_keeps {I : Store → Prop} {f : Entry → Session Unit}
    (hf : ∀ e ∈ desk.builders, (f e).Keeps I) (i : Nat) : (desk.onBuilder i f).Keeps I := by
  unfold onBuilder
  cases hi : desk.builders[i]? with
  | some e => exact hf e (List.mem_of_getElem? hi)
  | none => exact .pure _

theorem Desk.collect_keeps {I : Store → Prop} (hI : Store.Calm (fun _ => True) I) (w : Transfer) (e : Entry)
    (collecting : Collecting) : (desk.collect w e collecting).Keeps I := by
  have hset : ∀ f, (setMapping e.fields f).Keeps I := setMapping_keeps hI.toEditing trivial
  have hfield : ∀ k v, (e.withField k v).Keeps I := fun k v =>
    .bind (checkKey_keeps k) fun _ => .get fun s hs => hset _ s hs
  cases collecting with
  | field k v => exact hfield k v
  | fields given =>
    refine .bind (w.handle_roomy hI.roomy _) fun source => .get fun s hs => ?_
    exact Keeps.bind (hset _) (fun _ => .lift _) s hs
  | error err => exact .bind (.lift _) fun text => hfield _ _

theorem clearRecords_keeps (r : AppenderRef) : (clearRecords r).Keeps desk.Fits := by
  refine .get fun s h => ?_
  dsimp only
  split
  · exact ⟨h.widens ⟨Nat.le_refl _, rfl⟩, trivial⟩
  · exact h

theorem Adjustment.perform_keeps (adjustment : Adjustment) : adjustment.perform.Keeps desk.Fits := by
  have hI := (Desk.Fits.stable desk).toSteady
  cases adjustment with
  | configure changes => exact configure_keeps hI changes
  | reset environment => exact resetDefaults_keeps hI environment

namespace Request

/-- Whatever is asked for, a host's mappings stay apart from all that is made of them. -/
theorem perform_yields (h : desk.Fits s) (request : Request) :
    (request.perform w caught depth desk).Yields s desk.Fits fun a s' => a.2.Fits s' := by
  have hI := Desk.Fits.stable desk
  have hdone : ∀ {x : Session Unit}, x.Keeps desk.Fits →
      (do x; return (.done, desk) : Session (Answer × Desk)).Yields s desk.Fits fun a s' => a.2.Fits s' :=
    fun hx => (hx s h).bind fun _ s' hs' _ => ⟨hs', hs'⟩
  cases request with
  | make f => exact ⟨hI.toSteady.calm.allotted f h, h.allotted f⟩
  | change i edit =>
    have hset : ∀ m f, (setMapping m f).Keeps desk.Fits := fun m f =>
      setMapping_keeps hI.toSteady.calm.toEditing trivial f
    exact hdone (desk.onMapping_keeps (fun m _ => .get fun s hs => hset m _ s hs) i)
  | static object =>
    refine (w.source_yields h (h.takes_object object)).bind fun object' s₁ hs₁ _ => ?_
    exact (makeStatic_yields hs₁ object').bind fun source s₂ hs₂ ht => ⟨hs₂, hs₂.withSource ht⟩
  | lazy object => exact ⟨h, h.withSource ⟨(h.takes_object object).held, (h.takes_object object).apart⟩⟩
  | contextual object => exact ⟨h, h.withSource ⟨(h.takes_object object).held, (h.takes_object object).apart⟩⟩
  | context level appender source values =>
    refine Yields.bind (w.handle_roomy hI.toSteady.calm.roomy (desk.handle values) s h) fun handle s₁ hs₁ _ => ?_
    refine (copy_yields hs₁ handle).bind fun f s₂ hs₂ _ => ?_
    exact (newContext_yields hs₂ (hs₂.takes_object source)).bind fun _ s₃ hs₃ _ => ⟨hs₃, hs₃⟩
  | derive c d =>
    refine (desk.derivation_yields h w d).bind fun derivation s₁ hs₁ hd => .get ?_
    refine (Derivation.apply_yields hs₁ (hs₁.takes_context c) hd).bind fun c' s₂ hs₂ ht => ?_
    exact (newContext_yields hs₂ ht).bind fun _ s₃ hs₃ _ => ⟨hs₃, hs₃⟩
  | value c key default => exact .get (.lift_bind h fun v _ => ⟨h, h⟩)
  | build given =>
    refine Yields.bind (w.handle_roomy hI.toSteady.calm.roomy (desk.handle given) s h) fun handle s₁ hs₁ _ => ?_
    exact (Entry.new_yields hs₁ handle).bind fun e s₂ hs₂ he => ⟨hs₂, hs₂.withBuilder he.1 he.2⟩
  | collect i collecting =>
    exact hdone (desk.onBuilder_keeps (fun e _ => desk.collect_keeps hI.toSteady.calm w e collecting) i)
  | collected i =>
    unfold perform Desk.collected
    dsimp only
    cases desk.builders[i]? with
    | some e => exact ⟨hI.toSteady.calm.allotted _ h, h.allotted _⟩
    | none => exact ⟨h, h⟩
  | dispatch c level given args templated => exact hdone (dispatchWithin_keeps hI depth _)
  | emit i c level args => exact hdone (desk.onBuilder_keeps (fun e _ => dispatchWithin_keeps hI depth _) i)
  | append r c level given msg =>
    exact hdone fun s hs => Dispatch.append_keeps hI.toSteady hs (hI.receptive r _) trivial
  | records r =>
    refine .get ?_
    dsimp only
    split
    · exact ⟨h, h⟩
    · exact h
  | clear r => exact hdone (clearRecords_keeps r)
  | adjust adjustment => exact hdone adjustment.perform_keeps

end Request

/-! ## What appenders get -/

/-- The sinks have become what they are by taking deliveries. -/
def Sinks.Fed (k : Sinks) (s : Store) : Prop := ∃ ds : List Delivery, s.sinks = ds.foldl Sinks.take k

namespace Sinks.Fed

variable {k : Sinks}

theorem calm (k : Sinks) : Store.Calm (fun _ => True) k.Fed where
  edited _ _ _ hs := hs
  called _ hs := hs
  allotted _ hs := hs
  fresh _ := trivial

theorem more (hs : k.Fed s) (ds : List Delivery) (h : s'.sinks = ds.foldl Sinks.take s.sinks) : k.Fed s' := by
  obtain ⟨ds₀, hds₀⟩ := hs
  exact ⟨ds₀ ++ ds, by rw [h, hds₀, List.foldl_append]⟩

/-- What an appender keeps stays where it is. -/
theorem records (hs : k.Fed s) (r : AppenderRef) : (k.appender r).records <+: (s.appender r).records := by
  obtain ⟨ds, hds⟩ := hs
  have happ : s.appender r = (ds.foldl Sinks.take k).appender r := congrArg (Sinks.appender · r) hds
  rw [happ]
  cases hr : (k.appender r).keepsRecords with
  | true =>
    rw [(Sinks.takes_kept hr _).records]
    exact List.prefix_append _ _
  | false =>
    have hnone : (k.appender r).records = [] := by
      cases hk : k.appender r with
      | recording cs rs => rw [hk] at hr; cases hr
      | editing edits cs rs => rw [hk] at hr; cases hr
      | _ => rfl
    rw [hnone]
    exact List.nil_prefix

end Sinks.Fed

namespace Request

/-- A request changes the sinks by what they are handed, unless it clears an appender. -/
theorem perform_fed {k : Sinks} {request : Request} (hrequest : ∀ r, request ≠ .clear r) :
    (request.perform w caught depth desk).Keeps k.Fed := by
  have hI := Sinks.Fed.calm k
  have hdone : ∀ {x : Session Unit}, x.Keeps k.Fed →
      (do x; return (.done, desk) : Session (Answer × Desk)).Keeps k.Fed := fun hx => .bind hx fun _ => .pure _
  have hcontext : ∀ {g : ContextRef → Answer} c, (do let c ← newContext c; return (g c, desk) :
      Session (Answer × Desk)).Keeps k.Fed := fun c => .bind (fun s hs => ⟨hs, trivial⟩) fun _ => .pure _
  have hdispatch : ∀ call, (dispatchWithin caught depth call).Keeps k.Fed := fun call s hs =>
    .of_leaves (hs.more _ (dispatchWithin_shares depth [] call s).sinks)
  cases request with
  | make f => exact .bind (newMapping_roomy hI.roomy f) fun _ => .pure _
  | change i edit =>
    exact hdone (desk.onMapping_keeps (fun m _ => .get fun s hs => setMapping_keeps hI.toEditing trivial _ s hs) i)
  | static object =>
    exact .bind (w.source_roomy hI.roomy _) fun _ => .bind (makeStatic_roomy hI.roomy _) fun _ => .pure _
  | lazy object => exact .pure _
  | contextual object => exact .pure _
  | context level appender source values =>
    refine .bind (w.handle_roomy hI.roomy _) fun handle => ?_
    exact .bind (.get fun s hs => .lift hs fun _ _ => trivial) fun f => hcontext _
  | derive c d =>
    refine .bind (desk.derivation_roomy hI.roomy w d) fun derivation => .get fun s hs => ?_
    exact Keeps.bind (derivation.apply_roomy hI.roomy _) (fun c' => hcontext c') s hs
  | value c key default => exact .get fun s hs => .lift_bind hs fun v _ => ⟨hs, trivial⟩
  | build given =>
    refine .bind (w.handle_roomy hI.roomy _) fun handle => .bind ?_ fun _ => .pure _
    exact .bind (newCopy_roomy hI.roomy handle) fun _ => .pure _
  | collect i collecting => exact hdone (desk.onBuilder_keeps (fun e _ => desk.collect_keeps hI w e collecting) i)
  | collected i =>
    unfold perform Desk.collected
    dsimp only
    cases desk.builders[i]? with
    | some e => exact .get fun s hs => ⟨hs, trivial⟩
    | none => exact .pure _
  | dispatch c level given args templated => exact hdone (hdispatch _)
  | emit i c level args => exact hdone (desk.onBuilder_keeps (fun e _ => hdispatch _) i)
  | append r c level given msg =>
    refine hdone (.get fun s hs => .modify (.of_leaves ?_))
    exact hs.more [⟨r, c, level, s.supplied (desk.handle given), msg⟩] (receive_take r c level _ msg _)
  | records r =>
    refine .get fun s hs => ?_
    dsimp only
    split
    · exact ⟨hs, trivial⟩
    · exact hs
  | clear r => exact absurd rfl (hrequest r)
  | adjust adjustment =>
    refine hdone fun s hs => .of_leaves ?_
    obtain ⟨journal, hleaves⟩ := adjustment.leaves_perform s
    rw [hleaves]
    exact hs

end Request

namespace Host

variable {h : Host} {requests : List Request}

theorem step_fits (hfits : h.desk.Fits h.store) (request : Request) :
    (h.step w caught depth request).desk.Fits (h.step w caught depth request).store := by
  have hyields : (request.perform w caught depth h.desk).Yields h.store h.desk.Fits fun a s' => a.2.Fits s' :=
    request.perform_yields hfits
  unfold Session.Yields at hyields
  unfold step
  cases hrun : request.perform w caught depth h.desk h.store with
  | ok a s =>
    rw [hrun] at hyields
    exact hyields.2
  | error f s =>
    rw [hrun] at hyields
    exact hyields

/-- Along every run, a host's mappings stay apart from all that is made of them. -/
theorem run_fits (hfits : h.desk.Fits h.store) (requests : List Request) :
    (h.run w caught depth requests).desk.Fits (h.run w caught depth requests).store := by
  induction requests generalizing h with
  | nil => exact hfits
  | cons request requests ih => exact ih (step_fits hfits request)

theorem store_step (h : Host) (request : Request) :
    (h.step w caught depth request).store = (request.perform w caught depth h.desk).leaves h.store := by
  unfold step Session.leaves
  cases request.perform w caught depth h.desk h.store <;> rfl

/-- An appender keeps its records through every request but one to clear it. -/
theorem step_records {r : AppenderRef} {request : Request} (hrequest : request ≠ .clear r) (h : Host) :
    (h.store.appender r).records <+: ((h.step w caught depth request).store.appender r).records := by
  rw [store_step]
  by_cases hclear : ∃ q, request = .clear q
  · obtain ⟨q, rfl⟩ := hclear
    have hq : q ≠ r := fun he => hrequest (by rw [he])
    have hkeeps : (clearRecords q).Keeps fun s => s.appender r = h.store.appender r := by
      refine .get fun s hs => ?_
      dsimp only
      split
      · exact ⟨(appender_received_of_ne (Ne.symm hq) _).trans hs, trivial⟩
      · exact hs
    have hothers := (hkeeps.bind fun _ => Keeps.pure (Answer.done, h.desk)).leaves rfl
    exact hothers ▸ List.prefix_refl _
  · have hfed : h.store.sinks.Fed ((request.perform w caught depth h.desk).leaves h.store) :=
      (Request.perform_fed fun q hq => hclear ⟨q, hq⟩).leaves ⟨[], rfl⟩
    exact hfed.records r

/-- Until an appender is cleared, what it has kept stays as it is, and more is added behind. -/
theorem run_records {r : AppenderRef} (hrequests : .clear r ∉ requests) (h : Host) :
    (h.store.appender r).records <+: ((h.run w caught depth requests).store.appender r).records := by
  induction requests generalizing h with
  | nil => exact List.prefix_refl _
  | cons request requests ih =>
    rw [List.mem_cons, not_or] at hrequests
    exact (step_records (Ne.symm hrequests.1) h).trans (ih hrequests.2 _)

end Host

end ContextLog
