import ContextLog.Dispatch
import ContextLog.Proofs.Session
/-!
# What a dispatch can do to the store

Everything that happens to the store while an entry is dispatched is made of a few kinds of steps
(`Store.Step`): a report, a count of a producer's call, other defaults, a new mapping, an edit of a
mapping, a call of an appender and what the appender makes of it. Contexts, their names and the
programs of producers are never touched.

A predicate that every step keeps is kept by every part of a dispatch: here by all that makes the
fields of an entry, down to the single actions of a producer. Which mappings may be edited is a
parameter, `owned`: mappings made on the way always are, and an appender that edits what it is handed
edits what belongs to the entry (`Store.Stable`, `Store.Receptive`).
-/

namespace ContextLog

/-- The changes that an appender makes to the fields that it is handed. -/
def Appender.edits : Appender → List Edit
  | .editing edits _ _ => edits
  | _ => []

/-- Two appenders have the same type, and make the same changes to the fields that they are handed. -/
structure Appender.SameKind (a b : Appender) : Prop where
  typeName : a.typeName = b.typeName
  edits : a.edits = b.edits

/-- If a handle stands for a mapping, it is one that may be edited. -/
def Handle.IsOwned (owned : MappingRef → Prop) (h : Handle) : Prop := ∀ m, h = .live m → owned m

theorem Handle.IsOwned.mono {owned owned' : MappingRef → Prop} {h : Handle} (ho : h.IsOwned owned)
    (himp : ∀ m, owned m → owned' m) : h.IsOwned owned' := fun m hm => himp m (ho m hm)

theorem Handle.isOwned_live {owned : MappingRef → Prop} {m : MappingRef} (h : owned m) :
    (Handle.live m).IsOwned owned := by
  intro m' hm
  cases hm
  exact h

namespace Store

/-- One step of a dispatch. Only mappings with `owned` are edited, and only deliveries with `D` are
made. -/
inductive Step (owned : MappingRef → Prop) (D : Delivery → Prop) : Store → Store → Prop
  | reported (s : Store) (rs : List Report) : Step owned D s { s with journal := s.journal ++ rs }
  | called (s : Store) (p : ProducerRef) :
      Step owned D s { s with
        producers := s.producers.set p.index { s.producer p with calls := (s.producer p).calls + 1 } }
  | configured (s : Store) (d : Defaults) : Step owned D s { s with defaults := d }
  | allotted (s : Store) (f : Fields) : Step owned D s { s with mappings := s.mappings ++ [f] }
  | edited (s : Store) (m : MappingRef) (f : Fields) (h : owned m) :
      Step owned D s { s with mappings := s.mappings.set m.index f }
  | delivered (s : Store) (d : Delivery) (h : D d) :
      Step owned D s { s with deliveries := s.deliveries ++ [d] }
  | received (s : Store) (r : AppenderRef) (a : Appender) (h : a.SameKind (s.appender r)) :
      Step owned D s { s with appenders := s.appenders.set r.index a }
  | printed (s : Store) (channel : Channel) :
      Step owned D s { s with stdout := some channel }

/-- A predicate that every step keeps, and by which new mappings may be edited. -/
structure Steady (owned : MappingRef → Prop) (D : Delivery → Prop) (I : Store → Prop) : Prop where
  step : ∀ {s s'}, I s → Step owned D s s' → I s'
  fresh : ∀ {s}, I s → owned ⟨s.mappings.length⟩

/-- A predicate that every step keeps whichever fields an appender is handed: where a mapping may not be
edited, no appender edits any. -/
structure Stable (owned : MappingRef → Prop) (D : Delivery → Prop) (I : Store → Prop) : Prop
    extends Steady owned D I where
  edits : ∀ {s}, I s → ∀ r, (s.appender r).edits = [] ∨ ∀ m, owned m

/-- A predicate that is kept by edits of mappings with `owned`. -/
structure Editing (owned : MappingRef → Prop) (I : Store → Prop) : Prop where
  edited : ∀ {s} (m : MappingRef) f, owned m → I s → I { s with mappings := s.mappings.set m.index f }

/-- A predicate that is kept by all that happens inside a producer: its call is counted, mappings are
made, and mappings are edited. -/
structure Calm (owned : MappingRef → Prop) (I : Store → Prop) : Prop extends Editing owned I where
  called : ∀ {s} p, I s → I { s with
    producers := s.producers.set p.index { s.producer p with calls := (s.producer p).calls + 1 } }
  allotted : ∀ {s} f, I s → I { s with mappings := s.mappings ++ [f] }
  fresh : ∀ {s}, I s → owned ⟨s.mappings.length⟩

/-- A predicate that is kept by all that an appender does with an entry whose fields are those of a
handle. -/
structure Receptive (owned : MappingRef → Prop) (r : AppenderRef) (h : Handle) (I : Store → Prop) : Prop
    extends Editing owned I where
  received : ∀ {s} (a : Appender), a.SameKind (s.appender r) → I s →
    I { s with appenders := s.appenders.set r.index a }
  printed : ∀ {s} (channel : Channel), I s → I { s with stdout := some channel }
  edits : ∀ {s}, I s → (s.appender r).edits = [] ∨ h.IsOwned owned

variable {owned : MappingRef → Prop} {D : Delivery → Prop} {I : Store → Prop}

theorem Steady.calm (hI : Steady owned D I) : Calm owned I where
  edited m f hm h := hI.step h (.edited _ m f hm)
  called p h := hI.step h (.called _ p)
  allotted f h := hI.step h (.allotted _ f)
  fresh h := hI.fresh h

theorem Stable.receptive (hI : Stable owned D I) (r : AppenderRef) (h : Handle) : Receptive owned r h I where
  edited m f hm hs := hI.step hs (.edited _ m f hm)
  received a ha hs := hI.step hs (.received _ r a ha)
  printed channel hs := hI.step hs (.printed _ channel)
  edits hs := (hI.edits hs r).imp_right fun hm m _ => hm m

theorem mapping_allotted (s : Store) (f : Fields) :
    ({ s with mappings := s.mappings ++ [f] } : Store).mapping ⟨s.mappings.length⟩ = f := by
  simp [mapping]

theorem mapping_allotted_of_lt {s : Store} {m : MappingRef} (h : m.index < s.mappings.length)
    (f : Fields) : ({ s with mappings := s.mappings ++ [f] } : Store).mapping m = s.mapping m := by
  simp [mapping, List.getElem?_append_left h]

theorem mapping_of_length_le {s : Store} {m : MappingRef} (h : s.mappings.length ≤ m.index) : s.mapping m = .empty := by
  simp [mapping, h]

theorem mapping_edited {s : Store} {m : MappingRef} (h : m.index < s.mappings.length) (f : Fields) :
    ({ s with mappings := s.mappings.set m.index f } : Store).mapping m = f := by
  simp [mapping, h]

theorem mapping_edited_of_ne {s : Store} {m m' : MappingRef} (h : m ≠ m') (f : Fields) :
    ({ s with mappings := s.mappings.set m.index f } : Store).mapping m' = s.mapping m' := by
  have hi : m.index ≠ m'.index := fun e => h (by cases m; cases m'; simpa using e)
  simp [mapping, List.getElem?_set_ne hi]

end Store

open Store

variable {owned : MappingRef → Prop} {D : Delivery → Prop} {I : Store → Prop} {s : Store}

/-! ## Single operations -/

namespace Session

theorem report_keeps (hI : Steady owned D I) (rs : List Report) : (report rs).Keeps I :=
  fun s hs => ⟨hI.step hs (.reported s rs), trivial⟩

theorem newMapping_yields (hI : Calm owned I) (hs : I s) (f : Fields) :
    (newMapping f).Yields s I fun m s' =>
      owned m ∧ m.index = s.mappings.length ∧ m.index < s'.mappings.length ∧ s'.mapping m = f :=
  ⟨hI.allotted f hs, hI.fresh hs, rfl, by simp, mapping_allotted s f⟩

theorem newMapping_keeps (hI : Calm owned I) (f : Fields) : (newMapping f).Keeps I :=
  Yields.keeps fun _ hs => newMapping_yields hI hs f

theorem setMapping_keeps (hI : Editing owned I) {m : MappingRef} (hm : owned m) (f : Fields) :
    (setMapping m f).Keeps I :=
  fun _ hs => ⟨hI.edited m f hm hs, trivial⟩

theorem setAppender_yields {r : AppenderRef} {fields : Handle} (hI : Receptive owned r fields I)
    (hs : I s) {a : Appender} (h : a.SameKind (s.appender r)) :
    (setAppender r a).Yields s I fun _ s' => s' = { s with appenders := s.appenders.set r.index a } :=
  ⟨hI.received a h hs, rfl⟩

theorem checkKey_keeps (k : Value) : (checkKey k).Keeps I := by
  unfold checkKey
  cases k.mutableType? with
  | some type => exact .throw _
  | none => exact .pure _

theorem copy_yields (hs : I s) (h : Handle) :
    (copy h).Yields s I fun f s' => s' = s ∧ (s.supplied h).copy = .ok f :=
  .get (.lift hs fun _ hf => ⟨rfl, hf⟩)

theorem newCopy_yields (hI : Calm owned I) (hs : I s) (h : Handle) :
    (newCopy h).Yields s I fun m s' =>
      owned m ∧ m.index = s.mappings.length ∧ m.index < s'.mappings.length ∧
        (s.supplied h).copyIfPresent = .ok (s'.mapping m) := by
  unfold newCopy
  refine .get ?_
  cases hc : (s.supplied h).copyIfPresent with
  | error e => exact hs
  | ok f =>
    refine (newMapping_yields hI hs f).mono (fun _ h => h) ?_
    rintro m s' - ⟨ho, hi, hlt, rfl⟩
    exact ⟨ho, hi, hlt, rfl⟩

end Session

/-! ## Producers -/

namespace Produce

theorem write_keeps (out : Fields) (key value : Value) : (write out key value).Keeps I :=
  .bind (Session.checkKey_keeps key) fun _ => .pure _

theorem editable_yields (hs : I s) (fields : Handle) (fault : String → Failure) :
    (editable fields fault).Yields s I fun p s' => fields = .live p.1 ∧ p.2 = s'.mapping p.1 := by
  unfold editable
  refine .get ?_
  cases fields with
  | live m => exact ⟨hs, rfl, rfl⟩
  | _ => exact hs

theorem move_keeps (hI : Editing owned I) {fields : Handle} (hm : fields.IsOwned owned)
    (fault : String → Failure) (key out : Value) (output : Fields) {missing : Session Fields}
    (hmiss : missing.Keeps I) : (move fields fault key out output missing).Keeps I := fun s hs => by
  unfold move
  refine (editable_yields hs fields fault).bind ?_
  rintro ⟨m, f⟩ s' hs' ⟨hf, -⟩
  refine (Session.checkKey_keeps key s' hs').bind fun _ s₁ hs₁ _ => ?_
  cases f.get? key with
  | some v =>
    refine (Session.setMapping_keeps hI (hm m hf) _ s₁ hs₁).bind fun _ s₂ hs₂ _ => ?_
    exact write_keeps output out v s₂ hs₂
  | none => exact hmiss s₁ hs₁

theorem destination_keeps (target : Destination) : (destination target).Keeps I := by
  unfold destination
  cases target with
  | default => exact .pure _
  | context c => exact .pure _
  | named name =>
    refine .get fun s hs => ?_
    cases s.named? name with
    | some c => exact ⟨hs, trivial⟩
    | none => exact hs

end Produce

theorem configure_keeps (hI : Steady owned D I) (changes : List Change) :
    (configure changes).Keeps I := fun s hs => by
  unfold configure
  dsimp only
  refine .get (.lift_bind hs fun d _ => .modify ?_)
  have hs₁ := hI.step hs (.configured s d)
  refine .get (.lift_bind hs₁ fun shown _ => ?_)
  exact Session.report_keeps hI _ _ hs₁

theorem resetDefaults_keeps (hI : Steady owned D I) (environment : Environment) :
    (resetDefaults environment).Keeps I := fun s hs => by
  unfold resetDefaults
  refine .modify ?_
  exact Session.report_keeps hI _ _ (hI.step hs (.configured s _))

/-- A handle stands for fields as a producer gives them: for a mapping of their own, or for no
mapping. -/
def Store.Holds (s : Store) (h : Handle) : Supplied → Prop
  | .nothing => h = .nothing
  | .fields f => ∃ m, h = .live m ∧ m.index < s.mappings.length ∧ s.mapping m = f
  | .other v => h = .other v

/-- An entry that an action sends, as it is found when it is sent. -/
def Action.Sends (s : Store) (call : Call) : Action → Prop
  | .dispatch _ l fields args =>
    call.level = l ∧ call.args = args ∧ call.templated = true ∧ s.Holds call.fields fields
  | _ => False

/-- Does an action send no entry and leave the defaults alone? -/
def Action.isInner : Action → Bool
  | .dispatch _ _ _ _ | .configure _ | .reset _ => false
  | _ => true

namespace Produce

variable {nested : Call → Session Unit}

theorem sentFields_yields (hI : Calm owned I) (hs : I s) (fields : Supplied) :
    (sentFields fields).Yields s I fun h s' => s'.Holds h fields ∧ h.IsOwned owned := by
  cases fields with
  | nothing => exact ⟨hs, rfl, nofun⟩
  | other v => exact ⟨hs, rfl, nofun⟩
  | fields f =>
    refine (Session.newMapping_yields hI hs f).bind ?_
    rintro m s₁ hs₁ ⟨ho, -, hlt, hf⟩
    exact ⟨hs₁, ⟨m, rfl, hlt, hf⟩, Handle.isOwned_live ho⟩

/-- An action that sends no entry and leaves the defaults alone works on the fields of the entry and on
the output. -/
theorem act_inner_keeps (hI : Editing owned I) {scope : Scope}
    (hm : scope.fields.IsOwned owned) (p : ProducerRef) (output : Fields)
    {action : Action} (ha : action.isInner) : (act nested p scope output action).Keeps I := by
  cases action with
  | pop key out => exact move_keeps hI hm _ key out output (.pure _)
  | mustPop key out => exact move_keeps hI hm _ key out output (.throw _)
  | put key value =>
    intro s hs
    refine (editable_yields hs scope.fields .readOnlyItem).bind ?_
    rintro ⟨m, f⟩ s₁ hs₁ ⟨hf, -⟩
    refine (Session.checkKey_keeps key s₁ hs₁).bind fun _ s₂ hs₂ _ => ?_
    exact (Session.setMapping_keeps hI (hm m hf) _ s₂ hs₂).bind fun _ s₃ hs₃ _ => ⟨hs₃, trivial⟩
  | clear =>
    intro s hs
    refine (editable_yields hs scope.fields (.noAttribute · "clear")).bind ?_
    rintro ⟨m, f⟩ s₁ hs₁ ⟨hf, -⟩
    exact (Session.setMapping_keeps hI (hm m hf) _ s₁ hs₁).bind fun _ s₂ hs₂ _ => ⟨hs₂, trivial⟩
  | output key value => exact write_keeps output key value
  | level out => exact Session.Keeps.bind (.lift _) fun _ => write_keeps _ _ _
  | argumentCount out => exact write_keeps _ _ _
  | arguments out => exact write_keeps _ _ _
  | fieldCount out =>
    intro s hs
    refine (editable_yields hs scope.fields fun t => .mapping (.noSize t)).bind ?_
    rintro ⟨m, f⟩ s₁ hs₁ -
    exact write_keeps _ _ _ s₁ hs₁
  | fieldKeys out =>
    intro s hs
    refine (editable_yields hs scope.fields fun t => .mapping (.notIterable t)).bind ?_
    rintro ⟨m, f⟩ s₁ hs₁ -
    exact write_keeps _ _ _ s₁ hs₁
  | contextValue key out =>
    unfold act
    cases scope.context with
    | none => exact .throw _
    | some c =>
      refine .get fun s hs => ?_
      exact Session.Keeps.bind (.lift _) (fun v => write_keeps output out v) s hs
  | callCount out => exact .get fun s hs => write_keeps _ _ _ s hs
  | raise error => exact .throw _
  | giveNothing => exact .pure _
  | giveFields => exact .pure _
  | _ => cases ha

theorem act_keeps (hI : Steady owned D I) {scope : Scope} (hm : scope.fields.IsOwned owned)
    (p : ProducerRef) (output : Fields) (action : Action)
    (hn : ∀ s call, I s → action.Sends s call → call.fields.IsOwned owned →
      (nested call).Yields s I fun _ _ => True) :
    (act nested p scope output action).Keeps I := by
  cases action with
  | dispatch target level fields args =>
    -- The fields become a mapping of their own before the entry goes through `nested`.
    intro s hs
    refine (destination_keeps target s hs).bind fun context s₁ hs₁ _ => ?_
    refine (sentFields_yields hI.calm hs₁ fields).bind fun h s₂ hs₂ hh => ?_
    exact Session.Yields.bind (hn s₂ _ hs₂ ⟨rfl, rfl, rfl, hh.1⟩ hh.2) fun _ s₃ hs₃ _ => ⟨hs₃, trivial⟩
  | configure changes => exact .bind (configure_keeps hI changes) fun _ => .pure _
  | reset environment => exact .bind (resetDefaults_keeps hI environment) fun _ => .pure _
  | _ => exact act_inner_keeps hI.calm.toEditing hm p output rfl

theorem run_yields (hI : Steady owned D I) (hs : I s) {scope : Scope} (hm : scope.fields.IsOwned owned)
    (p : ProducerRef) {program : List Action}
    (hn : ∀ action ∈ program, ∀ s call, I s → action.Sends s call → call.fields.IsOwned owned →
      (nested call).Yields s I fun _ _ => True) (output : Fields) :
    (run nested p scope output program).Yields s I fun h _ => h.IsOwned owned := by
  induction program generalizing output s with
  | nil =>
    refine (Session.newMapping_yields hI.calm hs output).bind ?_
    rintro m s₁ hs₁ ⟨ho, -⟩
    exact ⟨hs₁, Handle.isOwned_live ho⟩
  | cons action rest ih =>
    have hact := act_keeps hI hm p output action (hn action List.mem_cons_self)
    have hrest := fun s hs out => ih (s := s) hs (fun a ha => hn a (List.mem_cons_of_mem _ ha)) out
    -- Two actions end the run; any other one hands its output on to the rest.
    cases action with
    | giveNothing => exact ⟨hs, nofun⟩
    | giveFields => exact ⟨hs, hm⟩
    | _ => exact (hact s hs).bind fun out s₁ hs₁ _ => hrest s₁ hs₁ out

end Produce

/-- `nested` keeps a predicate for every entry that a producer sends. -/
def NestedKeeps (owned : MappingRef → Prop) (I : Store → Prop) (nested : Call → Session Unit)
    (p : ProducerRef) : Prop :=
  ∀ s₀, I s₀ → ∀ action ∈ (s₀.producer p).program, ∀ s call, I s → action.Sends s call →
    call.fields.IsOwned owned → (nested call).Yields s I fun _ _ => True

/-- The producer that a source calls. -/
def Source.producer? : Source → Option ProducerRef
  | .lazy (.producer p) | .contextual (.producer p) => some p
  | _ => none

variable {nested : Call → Session Unit}

theorem Produce.call_yields (hI : Steady owned D I) (hs : I s) {p : ProducerRef}
    (hn : NestedKeeps owned I nested p) {scope : Scope} (hm : scope.fields.IsOwned owned) :
    (call nested p scope).Yields s I fun h _ => h.IsOwned owned := by
  unfold call
  refine .get (.modify ?_)
  exact run_yields hI (hI.step hs (.called s p)) hm p (hn s hs) .empty

theorem Produce.invoke_yields (hI : Steady owned D I) (hs : I s) {of : Source} (count : Nat)
    (hn : ∀ p, of = .producer p → NestedKeeps owned I nested p) {scope : Scope}
    (hm : scope.fields.IsOwned owned) :
    (invoke nested of count scope).Yields s I fun h _ => h.IsOwned owned := by
  unfold invoke
  cases of with
  | producer p =>
    refine .get ?_
    have hcall := call_yields hI hs (hn p rfl) hm
    dsimp only
    cases (s.producer p).parameters with
    | none => exact hcall
    | some signature =>
      dsimp only
      split
      · exact hcall
      · exact hs
  | _ => exact .get hs

/-- What a source gives may be edited, unless it is fixed. -/
theorem resolveSource_yields (hI : Steady owned D I) (hs : I s) {source : Source}
    (hn : ∀ p, source.producer? = some p → NestedKeeps owned I nested p) {scope : Scope}
    (hm : source.isContextual → scope.fields.IsOwned owned) :
    (resolveSource nested source scope).Yields s I fun h _ =>
      h.IsOwned fun m => owned m ∨ source = .static m := by
  have hgiven : ∀ {h : Handle}, h.IsOwned owned → h.IsOwned fun m => owned m ∨ source = .static m :=
    fun ho m hm => .inl (ho m hm)
  unfold resolveSource
  cases source with
  | static m => exact ⟨hs, Handle.isOwned_live (.inr rfl)⟩
  | lazy of =>
    -- It is called without the fields of the entry, so there are none for it to edit.
    have hcall : (Produce.invoke nested of 0 {}).Yields s I fun h _ => h.IsOwned owned :=
      Produce.invoke_yields hI hs 0 (fun p hp => hn p (by rw [hp]; rfl)) nofun
    exact hcall.mono (fun _ h => h) fun _ _ _ => hgiven
  | contextual of =>
    have hcall : (Produce.invoke nested of 4 scope).Yields s I fun h _ => h.IsOwned owned :=
      Produce.invoke_yields hI hs 4 (fun p hp => hn p (by rw [hp]; rfl)) (hm rfl)
    exact hcall.mono (fun _ h => h) fun _ _ _ => hgiven
  | _ => exact .get hs

/-! ## The fields of an entry -/

/-- What becomes of the two sides of an entry's fields: one of them as it is, a new mapping, or a
failure that leaves the store as it was. -/
theorem mergeHandles_cases (explicit produced : Handle) (s : Store) :
    ((s.supplied produced).isPresent = false ∧
      mergeHandles explicit produced s = .ok (.explicit, explicit) s) ∨
    ((s.supplied produced).isPresent = true ∧ (s.supplied explicit).isPresent = false ∧
      mergeHandles explicit produced s = .ok (.produced, produced) s) ∨
    (∃ base merged, (s.supplied explicit).isPresent = true ∧ (s.supplied explicit).copy = .ok base ∧
      (s.supplied produced).addTo base = (.ok (), merged) ∧
      mergeHandles explicit produced s =
        .ok (.new, .live ⟨s.mappings.length⟩) { s with mappings := s.mappings ++ [merged] }) ∨
    ∃ f, mergeHandles explicit produced s = .error f s := by
  unfold mergeHandles Supplied.merge
  rw [Session.run_bind_ok Session.run_get]
  cases hp : (s.supplied produced).isPresent with
  | false => exact .inl ⟨rfl, rfl⟩
  | true =>
    cases he : (s.supplied explicit).isPresent with
    | false => exact .inr (.inl ⟨rfl, rfl, rfl⟩)
    | true =>
      cases hc : (s.supplied explicit).copy with
      | error f => exact .inr (.inr (.inr ⟨f, rfl⟩))
      | ok base =>
        rcases ha : (s.supplied produced).addTo base with ⟨_ | _, merged⟩
        · exact .inr (.inr (.inr ⟨_, by simp only [ha, bind, Except.bind]; rfl⟩))
        · refine .inr (.inr (.inl ⟨base, merged, rfl, rfl, ha, ?_⟩))
          simp only [ha, bind, Except.bind]
          rfl

theorem mergeHandles_yields (hI : Calm owned I) (hs : I s) (explicit produced : Handle) :
    (mergeHandles explicit produced).Yields s I fun r _ =>
      r.2 = explicit ∨ r.2 = produced ∨ r.2.IsOwned owned := by
  unfold Session.Yields
  rcases mergeHandles_cases explicit produced s with ⟨-, h⟩ | ⟨-, -, h⟩ | ⟨_, merged, -, -, -, h⟩ | ⟨f, h⟩
  · rw [h]; exact ⟨hs, .inl rfl⟩
  · rw [h]; exact ⟨hs, .inr (.inl rfl)⟩
  · rw [h]; exact ⟨hI.allotted merged hs, .inr (.inr (Handle.isOwned_live (hI.fresh hs)))⟩
  · rw [h]; exact hs

theorem mergeHandles_keeps (hI : Calm owned I) (explicit produced : Handle) :
    (mergeHandles explicit produced).Keeps I :=
  Session.Yields.keeps fun _ hs => mergeHandles_yields hI hs explicit produced

/-- The fields of an entry may be edited, unless they are its own ones or fixed ones. -/
theorem resolveFields_yields (hI : Steady owned D I) (hs : I s) {source : Source}
    (hn : ∀ p, source.producer? = some p → NestedKeeps owned I nested p) {scope : Scope}
    (hm : source.isContextual → scope.fields.IsOwned owned) :
    (resolveFields nested source scope).Yields s I fun h _ =>
      h = scope.fields ∨ h.IsOwned fun m => owned m ∨ source = .static m := by
  unfold resolveFields
  cases source.isAbsent with
  | true => exact ⟨hs, .inl rfl⟩
  | false =>
    refine Session.Yields.bind (resolveSource_yields hI hs hn hm) fun produced s₁ hs₁ hproduced => ?_
    refine (mergeHandles_yields hI.calm hs₁ scope.fields produced).bind ?_
    rintro ⟨side, h⟩ s₂ hs₂ (rfl | rfl | ho)
    · exact ⟨hs₂, .inl rfl⟩
    · exact ⟨hs₂, .inr hproduced⟩
    · exact ⟨hs₂, .inr fun m hm => .inl (ho m hm)⟩

namespace Dispatch

/-- A source that may edit the fields of an entry gets a copy of them. -/
theorem explicitFields_yields (hI : Calm owned I) (hs : I s) (source : Source) (fields : Handle) :
    (explicitFields source fields).Yields s I fun h s' =>
      if source.isContextual then
        ∃ m, h = .live m ∧ owned m ∧ m.index = s.mappings.length ∧ m.index < s'.mappings.length ∧
          (s.supplied fields).copyIfPresent = .ok (s'.mapping m)
      else s' = s ∧ h = if s.isPresent fields then fields else .vacant := by
  unfold explicitFields
  cases source.isContextual with
  | true =>
    refine (Session.newCopy_yields hI hs fields).bind ?_
    rintro m s₁ hs₁ ⟨ho, hi, hlt, hc⟩
    exact ⟨hs₁, m, rfl, ho, hi, hlt, hc⟩
  | false =>
    refine .get ?_
    cases hp : s.isPresent fields with
    | true => exact ⟨hs, rfl, rfl⟩
    | false => exact ⟨hs, rfl, rfl⟩

/-- The fields of an entry may be edited, unless they are its own ones or the fixed ones of its
context. -/
theorem entryFields_yields (hI : Steady owned D I) {c : ContextRef} (hs : I s)
    (hn : ∀ p, (s.sourceOf c).producer? = some p → NestedKeeps owned I nested p) (level : Level)
    (call : Call) :
    (entryFields nested c level call).Yields s I fun h _ =>
      h = call.fields ∨ h.IsOwned fun m => owned m ∨ s.sourceOf c = .static m := by
  unfold entryFields
  refine .get ?_
  refine (explicitFields_yields hI.calm hs (s.sourceOf c) call.fields).bind fun explicit s₁ hs₁ hx => ?_
  have hexplicit : explicit = call.fields ∨ explicit.IsOwned owned := by
    split at hx
    · obtain ⟨m, rfl, ho, -⟩ := hx
      exact .inr (Handle.isOwned_live ho)
    · obtain ⟨-, rfl⟩ := hx
      split
      · exact .inl rfl
      · exact .inr nofun
  refine (resolveFields_yields hI hs₁ hn fun hc => ?_).mono (fun _ h => h) fun h _ _ hh => ?_
  · rw [if_pos hc] at hx
    obtain ⟨m, rfl, ho, -⟩ := hx
    exact Handle.isOwned_live ho
  · rcases hh with rfl | hh
    · exact hexplicit.imp_right fun ho m hm => .inl (ho m hm)
    · exact .inr hh

end Dispatch

end ContextLog
