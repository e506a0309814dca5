import ContextLog.Proofs.Nesting
/-!
# Two runs side by side

A run is followed together with another one that starts from a related store: `Session.Ends` says that two runs
end in the same way, with results and stores that are related, and `Session.Abreast` that two sessions do so from
all related stores. Which mappings of the two stores stand for each other is a second relation, `tied`, so that
the runs may keep their mappings in different places.

A relation between stores that is kept by the single operations (`Store.Parallel`) is kept by all that makes the
fields of an entry (`Dispatch.entryFields_ends`), as long as the entries that are sent on the way keep it; so
what two dispatches come to is left to their appenders (`Dispatch.deliver_ends`).
-/

namespace ContextLog

/-! ## Related runs -/

namespace Session

variable {α α' β β' : Type}

/-- Two runs end with related results, or with the same failure, in stores that are related. -/
inductive Ends (R : Store → Store → Prop) (A : α → α' → Prop) :
    EStateM.Result Failure Store α → EStateM.Result Failure Store α' → Prop
  | ok {a a' s s'} : A a a' → R s s' → Ends R A (.ok a s) (.ok a' s')
  | error (f : Failure) {s s'} : R s s' → Ends R A (.error f s) (.error f s')

/-- From related stores the two sessions end with related results in related stores. -/
def Abreast (R : Store → Store → Prop) (A : α → α' → Prop) (x : Session α) (x' : Session α') : Prop :=
  ∀ ⦃s s'⦄, R s s' → Ends R A (x s) (x' s')

variable {R : Store → Store → Prop} {A : α → α' → Prop} {B : β → β' → Prop} {x : Session α} {x' : Session α'}
  {f : α → Session β} {f' : α' → Session β'} {s s' : Store}

theorem Ends.outcome {x x' : Session α} (h : Ends R Eq (x s) (x' s')) : x'.outcome s' = x.outcome s := by
  unfold Session.outcome
  generalize x s = r at h ⊢
  generalize x' s' = r' at h ⊢
  cases h with
  | ok ha => exact congrArg Except.ok ha.symm
  | error f => rfl

theorem Ends.leaves (h : Ends R A (x s) (x' s')) : R (x.leaves s) (x'.leaves s') := by
  unfold Session.leaves
  generalize x s = r at h ⊢
  generalize x' s' = r' at h ⊢
  cases h <;> assumption

theorem Ends.bind (hx : Ends R A (x s) (x' s'))
    (hf : ∀ a a' s₁ s₁', x s = .ok a s₁ → A a a' → R s₁ s₁' → Ends R B (f a s₁) (f' a' s₁')) :
    Ends R B ((x >>= f) s) ((x' >>= f') s') := by
  generalize hr : x s = r at hx
  generalize hr' : x' s' = r' at hx
  cases hx with
  | ok ha hs =>
    rw [run_bind_ok hr, run_bind_ok hr']
    exact hf _ _ _ _ hr ha hs
  | error e hs =>
    rw [run_bind_error hr, run_bind_error hr']
    exact .error e hs

theorem Abreast.bind (hx : Abreast R A x x') (hf : ∀ a a', A a a' → Abreast R B (f a) (f' a')) :
    Abreast R B (x >>= f) (x' >>= f') := fun _ _ hs =>
  (hx hs).bind fun a a' _ _ _ ha hs₁ => hf a a' ha hs₁

theorem Abreast.pure {a : α} {a' : α'} (h : A a a') : Abreast R A (pure a) (pure a') := fun _ _ hs => .ok h hs

theorem Abreast.throw (f : Failure) : Abreast R A (throw f) (throw f) := fun _ _ hs => .error f hs

theorem Abreast.lift (r : Except Failure α) : Abreast R Eq (lift r) (lift r) := by
  cases r with
  | ok a => exact .pure rfl
  | error f => exact .throw f

/-- What may fail is the same, and what follows is related. -/
theorem Abreast.lift_bind {γ : Type} (r : Except Failure γ) {f : γ → Session α} {f' : γ → Session α'}
    (hf : ∀ a, Abreast R A (f a) (f' a)) : Abreast R A (Session.lift r >>= f) (Session.lift r >>= f') :=
  .bind (.lift r) fun a _ ha => ha ▸ hf a

/-- What may fail is the same on both sides. -/
theorem Ends.lift_bind {γ : Type} {r : Except Failure γ} {x x' : Session γ} {f : γ → Session α} {f' : γ → Session α'}
    (hx : x s = Session.lift r s) (hx' : x' s' = Session.lift r s') (hs : R s s')
    (hf : ∀ a, Ends R A (f a s) (f' a s')) : Ends R A ((x >>= f) s) ((x' >>= f') s') := by
  cases r with
  | ok a =>
    rw [run_bind_ok hx, run_bind_ok hx']
    exact hf a
  | error e =>
    rw [run_bind_error hx, run_bind_error hx']
    exact .error e hs

/-- Both sessions look at their stores. -/
theorem Abreast.get {f f' : Store → Session α} {A : α → α → Prop}
    (h : ∀ s s', R s s' → Ends R A (f s s) (f' s' s')) :
    Abreast R A ((get : Session Store) >>= f) ((get : Session Store) >>= f') := fun s s' hs => h s s' hs

/-- Catching the same failures keeps two runs side by side. -/
theorem Ends.catching {x x' : Session Unit} (h : Ends R Eq (x s) (x' s')) (caught : Failure → Bool) :
    Ends R Eq (x.catching caught s) (x'.catching caught s') := by
  rw [catching_run, catching_run]
  generalize x s = r at h ⊢
  generalize x' s' = r' at h ⊢
  cases h with
  | ok _ hs => exact .ok rfl hs
  | error f hs =>
    dsimp only
    cases caught f with
    | true => exact .ok rfl hs
    | false => exact .error f hs

end Session

open Session

/-! ## What stands for the same -/

/-- Two handles stand for the same fields. -/
inductive Handle.Tied (tied : MappingRef → MappingRef → Prop) : Handle → Handle → Prop
  | nothing : Tied tied .nothing .nothing
  | live {m m' : MappingRef} : tied m m' → Tied tied (.live m) (.live m')
  | vacant : Tied tied .vacant .vacant
  | other (v : Value) : Tied tied (.other v) (.other v)

/-- Two sources are the same but for where their mappings are. -/
inductive Source.Tied (tied : MappingRef → MappingRef → Prop) : Source → Source → Prop
  | value (v : Value) : Tied tied (.value v) (.value v)
  | mapping {m m' : MappingRef} : tied m m' → Tied tied (.mapping m) (.mapping m')
  | producer (p : ProducerRef) : Tied tied (.producer p) (.producer p)
  | static {m m' : MappingRef} : tied m m' → Tied tied (.static m) (.static m')
  | lazy {of of' : Source} : Tied tied of of' → Tied tied (.lazy of) (.lazy of')
  | contextual {of of' : Source} : Tied tied of of' → Tied tied (.contextual of) (.contextual of')

/-- Two calls are the same but for their fields. -/
structure Call.Tied (F : Handle → Handle → Prop) (call call' : Call) : Prop where
  context : call'.context = call.context
  level : call'.level = call.level
  fields : F call.fields call'.fields
  args : call'.args = call.args
  templated : call'.templated = call.templated

/-- Two scopes are the same but for where their fields are. -/
structure Scope.Tied (tied : MappingRef → MappingRef → Prop) (scope scope' : Scope) : Prop where
  context : scope'.context = scope.context
  level : scope'.level = scope.level
  fields : scope.fields.Tied tied scope'.fields
  args : scope'.args = scope.args

section refl

variable {tied : MappingRef → MappingRef → Prop}

theorem Handle.Tied.refl {h : Handle} (hm : ∀ m, h = .live m → tied m m) : h.Tied tied h := by
  cases h with
  | nothing => exact .nothing
  | live m => exact .live (hm m rfl)
  | vacant => exact .vacant
  | other v => exact .other v

theorem Handle.Tied.eq {h h' : Handle} (ht : h.Tied Eq h') : h' = h := by
  cases ht with
  | live hm => rw [hm]
  | _ => rfl

theorem Call.Tied.eq {call call' : Call} (ht : call.Tied (Handle.Tied Eq) call') : call' = call := by
  obtain ⟨hcontext, hlevel, hfields, hargs, htemplated⟩ := ht
  cases call
  cases call'
  cases hcontext; cases hlevel; cases hfields.eq; cases hargs; cases htemplated
  rfl

theorem Source.tied_eq (source : Source) : source.Tied Eq source := by
  induction source with
  | value v => exact .value v
  | mapping m => exact .mapping rfl
  | producer p => exact .producer p
  | static m => exact .static rfl
  | lazy of ih => exact .lazy ih
  | contextual of ih => exact .contextual ih

end refl

namespace Store

/-- Two handles stand for the same fields, or for none at all. -/
def GivesSame (tied : MappingRef → MappingRef → Prop) (s s' : Store) (h h' : Handle) : Prop :=
  h.Tied tied h' ∨ s.isPresent h = false ∧ s'.isPresent h' = false

/-- Where mappings are tied they hold the same, and stay tied when both are edited. -/
structure Mirrored (tied : MappingRef → MappingRef → Prop) (R : Store → Store → Prop) : Prop where
  mapping : ∀ {s s' m m'}, R s s' → tied m m' → s'.mapping m' = s.mapping m
  edited : ∀ {s s' m m'} f, R s s' → tied m m' →
    R { s with mappings := s.mappings.set m.index f } { s' with mappings := s'.mappings.set m'.index f }

/-- A relation between stores that is kept by all that their producers can do by themselves, where the two stores
agree on which entries are let through. -/
structure Parallel (tied : MappingRef → MappingRef → Prop) (R : Store → Store → Prop) : Prop
    extends Mirrored tied R where
  fresh : ∀ {s s'}, R s s' → tied ⟨s.mappings.length⟩ ⟨s'.mappings.length⟩
  allotted : ∀ {s s'} f, R s s' →
    R { s with mappings := s.mappings ++ [f] } { s' with mappings := s'.mappings ++ [f] }
  producer : ∀ {s s'} p, R s s' → s'.producer p = s.producer p
  called : ∀ {s s'} p, R s s' → R (s.counted p) (s'.counted p)
  names : ∀ {s s'}, R s s' → s'.names = s.names
  value : ∀ {s s'} c key default, R s s' → (s'.context c).value key default = (s.context c).value key default
  source : ∀ {s s'} c, R s s' → (s.sourceOf c).Tied tied (s'.sourceOf c)
  admission : ∀ {s s'} context level, R s s' → s'.admission context level = s.admission context level
  configured : ∀ {s s'} p changes, R s s' → .configure changes ∈ (s.producer p).program →
    Abreast R Eq (configure changes) (configure changes)
  reset : ∀ {s s'} environment, R s s' → Ends R Eq (resetDefaults environment s) (resetDefaults environment s')

end Store

variable {tied : MappingRef → MappingRef → Prop} {R : Store → Store → Prop} {s s' : Store} {h h' : Handle}
  {nested nested' : Call → Session Unit}

namespace Store.Mirrored

variable (hI : Store.Mirrored tied R)
include hI

theorem supplied (hs : R s s') (hh : h.Tied tied h') : s'.supplied h' = s.supplied h := by
  cases hh with
  | live hm => exact congrArg Supplied.fields (hI.mapping hs hm)
  | _ => rfl

theorem typeName (hs : R s s') (hh : h.Tied tied h') : s'.typeName h' = s.typeName h := by
  have hsupplied := hI.supplied hs hh
  cases hh with
  | vacant => rfl
  | _ => exact congrArg Supplied.typeName hsupplied

theorem isPresent (hs : R s s') (hh : s.GivesSame tied s' h h') : s'.isPresent h' = s.isPresent h := by
  rcases hh with hh | ⟨hp, hp'⟩
  · exact congrArg Supplied.isPresent (hI.supplied hs hh)
  · rw [hp, hp']

theorem copyIfPresent (hs : R s s') (hh : s.GivesSame tied s' h h') :
    (s'.supplied h').copyIfPresent = (s.supplied h).copyIfPresent := by
  rcases hh with hh | ⟨hp, hp'⟩
  · rw [hI.supplied hs hh]
  · have hp : (s.supplied h).isPresent = false := hp
    have hp' : (s'.supplied h').isPresent = false := hp'
    unfold Supplied.copyIfPresent
    rw [hp, hp']
    rfl

end Store.Mirrored

theorem Store.Parallel.sourceType (hI : Store.Parallel tied R) {source source' : Source} (hs : R s s')
    (ht : source.Tied tied source') : s'.sourceType source' = s.sourceType source := by
  cases ht with
  | producer p => exact congrArg Producer.typeName (hI.producer p hs)
  | _ => rfl

/-! ## Operations on the store -/

namespace Session

theorem newMapping_abreast (hI : Store.Parallel tied R) (f : Fields) :
    Abreast R tied (newMapping f) (newMapping f) := fun _ _ hs => .ok (hI.fresh hs) (hI.allotted f hs)

theorem setMapping_abreast (hI : Store.Mirrored tied R) {m m' : MappingRef} (hm : tied m m') (f : Fields) :
    Abreast R Eq (setMapping m f) (setMapping m' f) := fun _ _ hs => .ok rfl (hI.edited f hs hm)

theorem checkKey_abreast (k : Value) : Abreast R Eq (checkKey k) (checkKey k) := by
  unfold checkKey
  cases k.mutableType? with
  | some type => exact .throw _
  | none => exact .pure rfl

theorem copy_abreast (hI : Store.Mirrored tied R) (hh : h.Tied tied h') : Abreast R Eq (copy h) (copy h') :=
  .get fun s s' hs => by
    rw [hI.supplied hs hh]
    exact Abreast.lift _ hs

/-- Two copies of what is the same when they are made. -/
theorem newCopy_ends_of_same (hI : Store.Parallel tied R) (hs : R s s')
    (hc : (s'.supplied h').copyIfPresent = (s.supplied h).copyIfPresent) :
    Ends R tied (newCopy h s) (newCopy h' s') := by
  show Ends R tied ((lift (s.supplied h).copyIfPresent >>= newMapping) s)
    ((lift (s'.supplied h').copyIfPresent >>= newMapping) s')
  rw [hc]
  exact Abreast.lift_bind _ (newMapping_abreast hI) hs

theorem newCopy_ends (hI : Store.Parallel tied R) (hs : R s s') (hh : s.GivesSame tied s' h h') :
    Ends R tied (newCopy h s) (newCopy h' s') :=
  newCopy_ends_of_same hI hs (hI.copyIfPresent hs hh)

/-- Defaults are changed in the same way where they are the same and the changes are shown alike. -/
theorem configure_ends {changes : List Change} (hs : R s s') (hdefaults : s'.defaults = s.defaults)
    (htext : ∀ change ∈ changes, s'.changeText change = s.changeText change)
    (hset : ∀ d, R { s with defaults := d } { s' with defaults := d })
    (hreport : ∀ shown (s s' : Store), R s s' →
      R { s with journal := s.journal ++ [.configured shown] }
        { s' with journal := s'.journal ++ [.configured shown] }) :
    Ends R Eq (configure changes s) (configure changes s') := by
  rw [configure_run, configure_run, hdefaults]
  cases Change.applyAll s.defaults changes with
  | error f => exact .error f hs
  | ok d =>
    dsimp only
    have hshown : ∀ change ∈ Change.distinct changes,
        (do return (change.name, ← s'.changeText change) : Except Failure (String × String)) =
          (do return (change.name, ← s.changeText change)) := fun change hmem => by
      rw [htext change (Change.mem_of_mem_distinct hmem)]
    rw [mapM_congr hshown]
    exact Abreast.lift_bind _ (fun shown s s' h => .ok rfl (hreport shown s s' h)) (hset d)

end Session

/-! ## Producers -/

/-- The entries of a list keep the relation, whichever call stands for them on the other side. -/
def Store.NestedEnds (tied : MappingRef → MappingRef → Prop) (R : Store → Store → Prop)
    (nested nested' : Call → Session Unit) (es : List (Call × Store)) : Prop :=
  ∀ sent ∈ es, ∀ call' s', sent.1.Tied (Handle.Tied tied) call' → R sent.2 s' →
    Ends R Eq (nested sent.1 sent.2) (nested' call' s')

namespace Produce

theorem write_abreast (out : Fields) (key value : Value) :
    Abreast R Eq (write out key value) (write out key value) :=
  .bind (checkKey_abreast key) fun _ _ _ => .pure rfl

theorem editable_abreast (hI : Store.Mirrored tied R) (hh : h.Tied tied h') (fault : String → Failure) :
    Abreast R (fun a a' => tied a.1 a'.1 ∧ a'.2 = a.2) (editable h fault) (editable h' fault) := fun s s' hs => by
  have htype := hI.typeName hs hh
  cases hh with
  | live hm => exact .ok ⟨hm, hI.mapping hs hm⟩ hs
  | nothing => exact .error _ hs
  | vacant => exact .error _ hs
  | other v => exact .error _ hs

/-- What works on the fields of an entry as a mapping. -/
theorem editable_bind {α : Type} (hI : Store.Mirrored tied R) (hh : h.Tied tied h') (fault : String → Failure)
    {f f' : MappingRef × Fields → Session α}
    (hf : ∀ m m' g, tied m m' → Abreast R Eq (f (m, g)) (f' (m', g))) :
    Abreast R Eq (editable h fault >>= f) (editable h' fault >>= f') :=
  .bind (editable_abreast hI hh fault) fun ⟨m, g⟩ ⟨m', g'⟩ ⟨hm, hg⟩ => by
    obtain rfl : g' = g := hg
    exact hf m m' g' hm

theorem move_abreast (hI : Store.Mirrored tied R) (hh : h.Tied tied h') (fault : String → Failure)
    (key out : Value) (output : Fields) {missing : Session Fields} (hm : Abreast R Eq missing missing) :
    Abreast R Eq (move h fault key out output missing) (move h' fault key out output missing) :=
  editable_bind hI hh fault fun m m' g htied => .bind (checkKey_abreast key) fun _ _ _ => by
    cases g.get? key with
    | some v => exact .bind (setMapping_abreast hI htied _) fun _ _ _ => write_abreast output out v
    | none => exact hm

theorem sentFields_abreast (hI : Store.Parallel tied R) (fields : Supplied) :
    Abreast R (Handle.Tied tied) (sentFields fields) (sentFields fields) := by
  cases fields with
  | nothing => exact .pure .nothing
  | fields f => exact .bind (newMapping_abreast hI f) fun _ _ hm => .pure (.live hm)
  | other v => exact .pure (.other v)

theorem destination_abreast (hI : Store.Parallel tied R) (target : Destination) :
    Abreast R Eq (destination target) (destination target) := by
  cases target with
  | named name =>
    refine .get fun s s' hs => ?_
    rw [Store.named?, Store.named?, hI.names hs]
    cases s.names.lookup name with
    | some c => exact .ok rfl hs
    | none => exact .error _ hs
  | _ => exact .pure rfl

theorem sending_abreast (hI : Store.Parallel tied R) (target : Destination) (level : Value) (fields : Supplied)
    (args : List Value) :
    Abreast R (Call.Tied (Handle.Tied tied)) (sending target level fields args)
      (sending target level fields args) :=
  .bind (destination_abreast hI target) fun _ _ hcontext =>
    .bind (sentFields_abreast hI fields) fun _ _ hh => .pure ⟨hcontext.symm, rfl, hh, rfl, rfl⟩

/-- An action that sends no entry and leaves the defaults alone. -/
theorem act_inner_abreast (hI : Store.Parallel tied R) (p : ProducerRef) {scope scope' : Scope}
    (hscope : scope.Tied tied scope') (output : Fields) {action : Action} (ha : action.isInner) :
    Abreast R Eq (act nested p scope output action) (act nested' p scope' output action) := by
  have hM := hI.toMirrored
  have hfields := hscope.fields
  cases action with
  | pop key out => exact move_abreast hM hfields _ key out output (.pure rfl)
  | mustPop key out => exact move_abreast hM hfields _ key out output (.throw _)
  | put key value =>
    refine editable_bind hM hfields _ fun m m' g hm => .bind (checkKey_abreast key) fun _ _ _ => ?_
    exact .bind (setMapping_abreast hM hm _) fun _ _ _ => .pure rfl
  | clear =>
    exact editable_bind hM hfields _ fun m m' g hm => .bind (setMapping_abreast hM hm _) fun _ _ _ => .pure rfl
  | output key value => exact write_abreast _ _ _
  | level out =>
    unfold act
    rw [hscope.level]
    exact .lift_bind _ fun _ => write_abreast _ _ _
  | argumentCount out =>
    unfold act
    rw [hscope.args]
    exact write_abreast _ _ _
  | arguments out =>
    unfold act
    rw [hscope.args]
    exact write_abreast _ _ _
  | fieldCount out => exact editable_bind hM hfields _ fun _ _ g _ => write_abreast _ _ _
  | fieldKeys out => exact editable_bind hM hfields _ fun _ _ g _ => write_abreast _ _ _
  | contextValue key out =>
    unfold act
    rw [hscope.context]
    cases scope.context with
    | none => exact .throw _
    | some c =>
      refine .get fun s s' hs => ?_
      rw [hI.value c key .none hs]
      exact Abreast.lift_bind _ (fun v => write_abreast _ _ _) hs
  | callCount out =>
    refine .get fun s s' hs => ?_
    rw [hI.producer p hs]
    exact write_abreast _ _ _ hs
  | raise error => exact .throw _
  | giveNothing => exact .pure rfl
  | giveFields => exact .pure rfl
  | _ => cases ha

theorem act_ends (hI : Store.Parallel tied R) (hs : R s s') (p : ProducerRef) {scope scope' : Scope}
    (hscope : scope.Tied tied scope') (output : Fields) {action : Action}
    (hc : ∀ changes, action = .configure changes → Abreast R Eq (configure changes) (configure changes))
    (hn : Store.NestedEnds tied R nested nested' (sent action s)) :
    Ends R Eq (act nested p scope output action s) (act nested' p scope' output action s') := by
  cases action with
  | dispatch target level fields args =>
    rw [act_dispatch, act_dispatch]
    refine (sending_abreast hI target level fields args hs).bind fun call call' s₁ s₁' hsend hcall hs₁ => ?_
    have hmem : (call, s₁) ∈ sent (.dispatch target level fields args) s := by
      simp only [sent, hsend, List.mem_singleton]
    exact (hn _ hmem call' s₁' hcall hs₁).bind fun _ _ _ _ _ _ hs₂ => .ok rfl hs₂
  | configure changes => exact (hc changes rfl hs).bind fun _ _ _ _ _ _ hs₁ => .ok rfl hs₁
  | reset environment => exact (hI.reset environment hs).bind fun _ _ _ _ _ _ hs₁ => .ok rfl hs₁
  | _ => exact act_inner_abreast hI p hscope output rfl hs

/-- An action is followed by the rest of its run, unless it fails. -/
theorem act_then_ends {p : ProducerRef} {scope scope' : Scope} {output : Fields} {action : Action} {rest : List Action}
    (hact : Store.NestedEnds tied R nested nested' (sent action s) →
      Ends R Eq (act nested p scope output action s) (act nested' p scope' output action s'))
    (hrest : ∀ out s₁ s₁', R s₁ s₁' → Store.NestedEnds tied R nested nested' (sends nested p scope out rest s₁) →
      Ends R (Handle.Tied tied) (run nested p scope out rest s₁) (run nested' p scope' out rest s₁'))
    (hn : Store.NestedEnds tied R nested nested' (sent action s ++ match act nested p scope output action s with
      | .ok out s₁ => sends nested p scope out rest s₁
      | .error _ _ => [])) :
    Ends R (Handle.Tied tied) ((act nested p scope output action >>= fun out => run nested p scope out rest) s)
      ((act nested' p scope' output action >>= fun out => run nested' p scope' out rest) s') := by
  refine (hact fun sent hmem => hn sent (List.mem_append_left _ hmem)).bind fun out out' s₁ s₁' hok hout hs₁ => ?_
  subst hout
  refine hrest out s₁ s₁' hs₁ fun sent hmem => hn sent (List.mem_append_right _ ?_)
  rw [hok]
  exact hmem

theorem run_ends (hI : Store.Parallel tied R) (hs : R s s') (p : ProducerRef) {scope scope' : Scope}
    (hscope : scope.Tied tied scope') (output : Fields) {program : List Action}
    (hc : ∀ changes, .configure changes ∈ program → Abreast R Eq (configure changes) (configure changes))
    (hn : Store.NestedEnds tied R nested nested' (sends nested p scope output program s)) :
    Ends R (Handle.Tied tied) (run nested p scope output program s) (run nested' p scope' output program s') := by
  induction program generalizing output s s' with
  | nil => exact Abreast.bind (newMapping_abreast hI output) (fun _ _ hm => .pure (.live hm)) hs
  | cons action rest ih =>
    have hact : Store.NestedEnds tied R nested nested' (sent action s) →
        Ends R Eq (act nested p scope output action s) (act nested' p scope' output action s') :=
      act_ends hI hs p hscope output fun changes ha => hc changes (ha ▸ List.mem_cons_self)
    have hrest : ∀ out s₁ s₁', R s₁ s₁' → Store.NestedEnds tied R nested nested' (sends nested p scope out rest s₁) →
        Ends R (Handle.Tied tied) (run nested p scope out rest s₁) (run nested' p scope' out rest s₁') :=
      fun out _ _ hs₁ => ih hs₁ out fun changes hmem => hc changes (List.mem_cons_of_mem _ hmem)
    -- Two actions end the run; after any other one the rest goes on from related stores.
    cases action with
    | giveNothing => exact .ok .nothing hs
    | giveFields => exact .ok hscope.fields hs
    | _ => exact act_then_ends hact hrest hn

theorem call_ends (hI : Store.Parallel tied R) (hs : R s s') (p : ProducerRef) {scope scope' : Scope}
    (hscope : scope.Tied tied scope')
    (hn : Store.NestedEnds tied R nested nested' (sends nested p scope .empty (s.producer p).program (s.counted p))) :
    Ends R (Handle.Tied tied) (call nested p scope s) (call nested' p scope' s') := by
  show Ends R _ (run nested p scope .empty (s.producer p).program (s.counted p))
    (run nested' p scope' .empty (s'.producer p).program (s'.counted p))
  rw [hI.producer p hs]
  exact run_ends hI (hI.called p hs) p hscope .empty (fun changes => hI.configured p changes hs) hn

theorem invoke_ends (hI : Store.Parallel tied R) (hs : R s s') {of of' : Source} (hof : of.Tied tied of')
    (count : Nat) {scope scope' : Scope} (hscope : scope.Tied tied scope')
    (hn : Store.NestedEnds tied R nested nested' (invoked nested of count scope s)) :
    Ends R (Handle.Tied tied) (invoke nested of count scope s) (invoke nested' of' count scope' s') := by
  have htype := hI.sourceType hs hof
  cases hof with
  | producer p =>
    have hcall : s.takes p count = true →
        Ends R (Handle.Tied tied) (call nested p scope s) (call nested' p scope' s') := fun ht => by
      rw [invoked, if_pos ht] at hn
      exact call_ends hI hs p hscope hn
    have hproducer := hI.producer p hs
    rw [invoke_run, invoke_run, hproducer]
    cases hsig : (s.producer p).parameters with
    | none => exact hcall (by rw [Store.takes, hsig])
    | some signature =>
      dsimp only
      cases ha : signature.accepts count with
      | true => exact hcall (by rw [Store.takes, hsig]; exact ha)
      | false => exact .error _ hs
  | value v => exact .error _ hs
  | mapping hm => exact .error _ hs
  | static hm => exact .error _ hs
  | lazy ht => exact .error _ hs
  | contextual ht => exact .error _ hs

end Produce

/-! ## The fields of an entry -/

theorem resolveSource_ends (hI : Store.Parallel tied R) (hs : R s s') {source source' : Source}
    (ht : source.Tied tied source') {scope scope' : Scope} (hscope : scope.Tied tied scope')
    (hn : Store.NestedEnds tied R nested nested' (source.sends nested scope s)) :
    Ends R (Handle.Tied tied) (resolveSource nested source scope s) (resolveSource nested' source' scope' s') := by
  cases ht with
  | static hm => exact .ok (.live hm) hs
  | lazy hof => exact Produce.invoke_ends hI hs hof 0 ⟨rfl, rfl, .nothing, rfl⟩ hn
  | contextual hof => exact Produce.invoke_ends hI hs hof 4 hscope hn
  | value v => exact .error _ hs
  | mapping hm => exact .error _ hs
  | producer p =>
    show Ends R _ (EStateM.Result.error (.noAttribute (s.producer p).typeName "resolve") s)
      (EStateM.Result.error (.noAttribute (s'.producer p).typeName "resolve") s')
    rw [hI.producer p hs]
    exact .error _ hs

theorem mergeHandles_abreast (hI : Store.Parallel tied R) {explicit explicit' produced produced' : Handle}
    (he : explicit.Tied tied explicit') (hp : produced.Tied tied produced') :
    Abreast R (fun a a' => a.2.Tied tied a'.2) (mergeHandles explicit produced)
      (mergeHandles explicit' produced') := by
  intro s s' hs
  unfold mergeHandles
  rw [run_bind_ok run_get, run_bind_ok run_get, hI.supplied hs he, hI.supplied hs hp]
  refine Abreast.lift_bind _ (fun ⟨side, fields⟩ => ?_) hs
  cases side with
  | explicit => exact .pure he
  | produced => exact .pure hp
  | new =>
    cases fields with
    | fields f => exact .bind (newMapping_abreast hI f) fun _ _ hm => .pure (.live hm)
    | nothing => exact .pure (.other _)
    | other v => exact .pure (.other _)

theorem Source.Tied.isAbsent {source source' : Source} (h : source.Tied tied source') :
    source'.isAbsent = source.isAbsent := by cases h <;> rfl

theorem Source.Tied.isContextual {source source' : Source} (h : source.Tied tied source') :
    source'.isContextual = source.isContextual := by cases h <;> rfl

theorem resolveFields_ends (hI : Store.Parallel tied R) (hs : R s s') {source source' : Source}
    (ht : source.Tied tied source') {scope scope' : Scope} (hscope : scope.Tied tied scope')
    (hn : Store.NestedEnds tied R nested nested' (source.sends nested scope s)) :
    Ends R (Handle.Tied tied) (resolveFields nested source scope s) (resolveFields nested' source' scope' s') := by
  unfold resolveFields
  rw [ht.isAbsent]
  split
  · exact .ok hscope.fields hs
  · refine (resolveSource_ends hI hs ht hscope hn).bind fun produced produced' s₁ s₁' _ hp hs₁ => ?_
    exact Abreast.bind (mergeHandles_abreast hI hscope.fields hp) (fun _ _ hh => .pure hh) hs₁

namespace Dispatch

theorem explicitFields_ends (hI : Store.Parallel tied R) (hs : R s s') {source source' : Source}
    (ht : source.Tied tied source') (hh : s.GivesSame tied s' h h') :
    Ends R (Handle.Tied tied) (explicitFields source h s) (explicitFields source' h' s') := by
  unfold explicitFields
  rw [ht.isContextual]
  split
  · exact (newCopy_ends hI hs hh).bind fun m m' s₁ s₁' _ hm hs₁ => .ok (.live hm) hs₁
  · rw [run_bind_ok run_get, run_bind_ok run_get, hI.isPresent hs hh]
    cases hp : s.isPresent h with
    | true =>
      rcases hh with hh | ⟨hp', -⟩
      · exact .ok hh hs
      · rw [hp] at hp'
        cases hp'
    | false => exact .ok .vacant hs

/-- The fields of two entries are related, if the calls are and the entries that are sent on the way keep the
relation. -/
theorem entryFields_ends (hI : Store.Parallel tied R) (hs : R s s') (c : ContextRef) (level : Level)
    {call call' : Call} (hcall : call.Tied (s.GivesSame tied s') call')
    (hn : Store.NestedEnds tied R nested nested' (sends nested c level call s)) :
    Ends R (Handle.Tied tied) (entryFields nested c level call s) (entryFields nested' c level call' s') := by
  have ht := hI.source c hs
  refine (explicitFields_ends hI hs ht hcall.fields).bind fun own own' s₁ s₁' hok hown hs₁ => ?_
  refine resolveFields_ends hI hs₁ ht ⟨rfl, rfl, hown, hcall.args⟩ ?_
  simpa only [sends, hok] using hn

end Dispatch

/-! ## Appenders -/

namespace Store

/-- A relation between stores that is also kept by all that follows the fields of an entry, but for what its
appender does. -/
structure Attended (R : Store → Store → Prop) : Prop where
  reported : ∀ {s s'} rs, R s s' → R { s with journal := s.journal ++ rs } { s' with journal := s'.journal ++ rs }
  delivered : ∀ {s s'} d, R s s' →
    R { s with deliveries := s.deliveries ++ [d] } { s' with deliveries := s'.deliveries ++ [d] }
  worker : ∀ {s s'}, R s s' → s'.onWorker = s.onWorker
  stdout : ∀ {s s'}, R s s' → s'.stdout.map (·.flushFailure) = s.stdout.map (·.flushFailure)
  stderr : ∀ {s s'}, R s s' → s'.stderr.map (·.flushFailure) = s.stderr.map (·.flushFailure)

/-- A relation between stores that is also kept by an appender that is the same on both sides. -/
structure Shared (a : AppenderRef) (R : Store → Store → Prop) : Prop where
  appender : ∀ {s s'}, R s s' → s'.appender a = s.appender a
  received : ∀ {s s'} b, R s s' →
    R { s with appenders := s.appenders.set a.index b } { s' with appenders := s'.appenders.set a.index b }
  printed : ∀ {s s' channel channel'} line, R s s' → s.stdout = some channel → s'.stdout = some channel' →
    R { s with stdout := some { channel with text := channel.text ++ line } }
      { s' with stdout := some { channel' with text := channel'.text ++ line } }

end Store

variable {a : AppenderRef}

theorem report_abreast (hF : Store.Attended R) (rs : List Report) : Abreast R Eq (report rs) (report rs) :=
  fun _ _ hs => .ok rfl (hF.reported rs hs)

theorem note_abreast (hF : Store.Attended R) (d : Delivery) : Abreast R Eq (note d) (note d) :=
  fun _ _ hs => .ok rfl (hF.delivered d hs)

theorem applyEdit_abreast (hI : Store.Mirrored tied R) (hh : h.Tied tied h') (edit : Edit) :
    Abreast R Eq (applyEdit h edit) (applyEdit h' edit) := by
  intro s s' hs
  have hedit : ∀ (k : Value) {m m' : MappingRef} (g : Fields → Fields), tied m m' → Abreast R Eq
      (do Session.checkKey k; Session.setMapping m (g ((← get).mapping m)) : Session Unit)
      (do Session.checkKey k; Session.setMapping m' (g ((← get).mapping m'))) := fun k m m' g hm =>
    .bind (checkKey_abreast k) fun _ _ _ => .get fun s s' hs => by
      rw [hI.mapping hs hm]
      exact setMapping_abreast hI hm _ hs
  unfold applyEdit
  rw [run_bind_ok run_get, run_bind_ok run_get, hI.typeName hs hh]
  cases hh with
  | live hm =>
    cases edit with
    | set k v => exact hedit k (·.set k v) hm hs
    | pop k => exact hedit k (·.erase k) hm hs
  | other v => cases v <;> cases edit <;> exact .error _ hs
  | _ => cases edit <;> exact .error _ hs

theorem applyEdits_abreast (hI : Store.Mirrored tied R) (hh : h.Tied tied h') (edits : List Edit) :
    Abreast R Eq (edits.forM (applyEdit h)) (edits.forM (applyEdit h')) := by
  induction edits with
  | nil => exact .pure rfl
  | cons edit edits ih => exact .bind (applyEdit_abreast hI hh edit) fun _ _ _ => ih

theorem setAppender_abreast (hA : Store.Shared a R) (b : Appender) :
    Abreast R Eq (setAppender a b) (setAppender a b) := fun _ _ hs => .ok rfl (hA.received b hs)

theorem keepRecord_abreast (hI : Store.Mirrored tied R) (hA : Store.Shared a R) (hh : h.Tied tied h')
    (remake : List (Option ContextRef) → List Record → Appender) (ctx : Option ContextRef) (level msg : Value) :
    Abreast R Eq (keepRecord remake a ctx level h msg) (keepRecord remake a ctx level h' msg) := by
  refine .get fun s s' hs => ?_
  rw [hA.appender hs]
  refine Abreast.bind (setAppender_abreast hA _) (fun _ _ _ => ?_) hs
  exact .bind (copy_abreast hI hh) fun kept _ hkept => hkept ▸ setAppender_abreast hA _

/-- An appender that is the same on both sides does the same with an entry. -/
theorem receive_abreast (hI : Store.Mirrored tied R) (hF : Store.Attended R) (hA : Store.Shared a R)
    (hh : h.Tied tied h') (ctx : Option ContextRef) (level msg : Value) :
    Abreast R Eq (receive a ctx level h msg) (receive a ctx level h' msg) := by
  intro s s' hs
  unfold receive
  rw [run_bind_ok run_get, run_bind_ok run_get, hA.appender hs]
  cases s.appender a with
  | recording cs rs => exact keepRecord_abreast hI hA hh .recording ctx level msg hs
  | editing edits cs rs =>
    exact Abreast.bind (keepRecord_abreast hI hA hh (.editing edits) ctx level msg)
      (fun _ _ _ => applyEdits_abreast hI hh edits) hs
  | stream text =>
    dsimp only
    rw [hI.supplied hs hh]
    exact Abreast.lift_bind _ (fun line => setAppender_abreast hA _) hs
  | console =>
    have hstdout := hF.stdout hs
    dsimp only
    rw [hI.supplied hs hh]
    cases ho : s.stdout with
    | none =>
      rw [ho, Option.map_none, Option.map_eq_none_iff] at hstdout
      rw [hstdout]
      exact .error _ hs
    | some channel =>
      rw [ho, Option.map_some, Option.map_eq_some_iff] at hstdout
      obtain ⟨channel', ho', -⟩ := hstdout
      rw [ho']
      dsimp only
      cases formatLine level (s.supplied h) msg with
      | error f => exact .error f hs
      | ok line => exact .ok rfl (hA.printed line hs ho ho')
  | numbered threshold records =>
    cases level with
    | level l =>
      refine Abreast.bind (copy_abreast hI hh) (fun kept _ hkept => ?_) hs
      subst hkept
      split
      · exact .lift_bind _ fun message => setAppender_abreast hA _
      · exact .pure rfl
    | _ => exact .error _ hs
  | structured logger records =>
    dsimp only
    rw [hI.supplied hs hh]
    refine Abreast.lift_bind _ (fun bound => .lift_bind _ fun method => ?_) hs
    exact .bind (setAppender_abreast hA _) fun _ _ _ => .lift _
  | broken error => exact .error _ hs
  | plain v => cases v <;> exact .error _ hs

namespace Dispatch

theorem flush_ends {channel channel' : Option Channel} (hs : R s s')
    (h : channel'.map (·.flushFailure) = channel.map (·.flushFailure)) :
    Ends R Eq (flush channel s) (flush channel' s') := by
  cases channel with
  | none =>
    rw [Option.map_none, Option.map_eq_none_iff] at h
    rw [h]
    exact .ok rfl hs
  | some channel =>
    rw [Option.map_some, Option.map_eq_some_iff] at h
    obtain ⟨channel', rfl, hfailure⟩ := h
    unfold flush
    dsimp only
    rw [hfailure]
    cases channel.flushFailure with
    | none => exact .ok rfl hs
    | some failure => exact .error _ hs

theorem followUp_abreast (hF : Store.Attended R) (l : Level) (msg : Text) :
    Abreast R Eq (followUp l msg) (followUp l msg) := by
  cases l with
  | fatal =>
    refine .get fun s s' hs => ?_
    rw [hF.worker hs]
    split
    · refine (flush_ends hs (hF.stdout hs)).bind fun _ _ s₁ s₁' _ _ hs₁ => ?_
      exact (flush_ends hs₁ (hF.stderr hs)).bind fun _ _ s₂ s₂' _ _ hs₂ => .error _ hs₂
    · exact .error _ hs
  | panic => exact .throw _
  | _ => exact .pure rfl

theorem trace_abreast (hI : Store.Mirrored tied R) (hF : Store.Attended R) (hA : Store.Shared a R)
    (hh : h.Tied tied h') (level msg : Value) :
    Abreast R Eq (trace a level h msg) (trace a level h' msg) := by
  refine .get fun s s' hs => ?_
  rw [hA.appender hs, hI.supplied hs hh]
  exact Abreast.lift_bind _ (fun event => report_abreast hF _) hs

theorem append_abreast (hI : Store.Mirrored tied R) (hF : Store.Attended R) (hA : Store.Shared a R)
    (hh : h.Tied tied h') (ctx : Option ContextRef) (level msg : Value) :
    Abreast R Eq (append a ctx level h msg) (append a ctx level h' msg) := by
  refine .get fun s s' hs => ?_
  rw [hI.supplied hs hh]
  exact Abreast.bind (note_abreast hF _) (fun _ _ _ => receive_abreast hI hF hA hh ctx level msg) hs

theorem handOver_abreast (hI : Store.Mirrored tied R) (hF : Store.Attended R) (hA : Store.Shared a R)
    (hh : h.Tied tied h') (debug : Value) (c : ContextRef) (l : Level) (msg : Text) :
    Abreast R Eq (handOver debug c l a h msg) (handOver debug c l a h' msg) := by
  have happend := append_abreast hI hF hA hh (some c) (.level l) (.text msg)
  unfold handOver
  split
  · exact .bind (trace_abreast hI hF hA hh (.level l) (.text msg)) fun _ _ _ => happend
  · exact happend

/-- What two related entries come to is settled by what their appenders do with them. -/
theorem deliver_ends (hI : Store.Parallel tied R) (hF : Store.Attended R) (hs : R s s')
    (hdebug : s'.defaults.debug = s.defaults.debug) (c : ContextRef) (l : Level) (a : AppenderRef)
    {call call' : Call} (hcall : call.Tied (s.GivesSame tied s') call')
    (hn : Store.NestedEnds tied R nested nested' (sends nested c l call s))
    (hover : ∀ h h' s₁ s₁' msg, entryFields nested c l call s = .ok h s₁ → h.Tied tied h' → R s₁ s₁' →
      (formatMessage call.args call.templated).2 = .ok msg →
      Ends R Eq (handOver s.defaults.debug c l a h msg { s₁ with journal := s₁.journal ++ call.mismatches })
        (handOver s.defaults.debug c l a h' msg { s₁' with journal := s₁'.journal ++ call.mismatches })) :
    Ends R Eq (deliver nested c l a call s) (deliver nested' c l a call' s') := by
  have hfields := entryFields_ends hI hs c l hcall hn
  generalize hx : entryFields nested c l call s = r at hfields
  generalize hx' : entryFields nested' c l call' s' = r' at hfields
  cases hfields with
  | error f hs₁ =>
    rw [deliver_of_fields_error hx, deliver_of_fields_error hx']
    exact .error f hs₁
  | @ok h h' s₁ s₁' hh hs₁ =>
    rw [deliver_of_fields hx, deliver_of_fields hx', hcall.args, hcall.templated, hdebug]
    have hmessage := fun msg => hover h h' s₁ s₁' msg hx hh hs₁
    have hs₂ := hF.reported call.mismatches hs₁
    show Ends R Eq ((lift (formatMessage call.args call.templated).2 >>= _) _)
      ((lift (formatMessage call.args call.templated).2 >>= _) _)
    cases hm : (formatMessage call.args call.templated).2 with
    | error f => exact .error f hs₂
    | ok msg => exact (hmessage msg hm).bind fun _ _ _ _ _ _ hs₃ => followUp_abreast hF l msg hs₃

end Dispatch

/-! ## Dispatching -/

/-- A dispatch keeps a relation between stores, if the entries that are sent on the way keep it and so does its
appender. -/
theorem dispatchWith_ends (hI : Store.Parallel tied R) (hF : Store.Attended R) (hs : R s s')
    (hdebug : s'.defaults.debug = s.defaults.debug) {call call' : Call}
    (hcall : call.Tied (s.GivesSame tied s') call')
    (hn : Store.NestedEnds tied R nested nested' (call.sends nested s))
    (hover : ∀ c l a h h' s₁ s₁' msg, s.admission call.context call.level = .admitted c l a →
      Dispatch.entryFields nested c l call s = .ok h s₁ → h.Tied tied h' → R s₁ s₁' →
      (formatMessage call.args call.templated).2 = .ok msg → Ends R Eq
        (Dispatch.handOver s.defaults.debug c l a h msg { s₁ with journal := s₁.journal ++ call.mismatches })
        (Dispatch.handOver s.defaults.debug c l a h' msg { s₁' with journal := s₁'.journal ++ call.mismatches })) :
    Ends R Eq (dispatchWith nested call s) (dispatchWith nested' call' s') := by
  rw [dispatchWith_run, dispatchWith_run, hcall.context, hcall.level, hI.admission call.context call.level hs]
  unfold Call.sends at hn
  cases hadm : s.admission call.context call.level with
  | refused f => exact .error f hs
  | filtered => exact .ok rfl hs
  | admitted c l a =>
    rw [hadm] at hn
    exact Dispatch.deliver_ends hI hF hs hdebug c l a hcall hn fun h h' s₁ s₁' msg hx hh hs₁ hm =>
      hover c l a h h' s₁ s₁' msg hadm hx hh hs₁ hm

/-- Two dispatches from related stores end in the same way and in related stores, if all appenders are the same on
both sides and no failure is caught on one side only. -/
theorem dispatchWithin_ends (hI : Store.Parallel tied R) (hF : Store.Attended R) (hA : ∀ a, Store.Shared a R)
    (hdebug : ∀ {s s'}, R s s' → s'.defaults.debug = s.defaults.debug) {caught : Tolerance}
    (hcaught : ∀ {call call' : Call}, call.Tied (Handle.Tied tied) call' → caught call' = caught call) (hs : R s s')
    {call call' : Call} (hcall : call.Tied (s.GivesSame tied s') call') (depth : Nat) :
    Ends R Eq (dispatchWithin caught depth call s) (dispatchWithin caught depth call' s') := by
  induction depth generalizing call call' s s' with
  | zero => exact .error _ hs
  | succ depth ih =>
    refine dispatchWith_ends hI hF hs (hdebug hs) hcall ?_ ?_
    · intro sent _ call' s' hsent hs'
      have hends := ih hs' ⟨hsent.context, hsent.level, .inl hsent.fields, hsent.args, hsent.templated⟩
      show Ends _ _ ((dispatchWithin caught depth sent.1).catching (caught sent.1) sent.2)
        ((dispatchWithin caught depth call').catching (caught call') s')
      rw [hcaught hsent]
      exact hends.catching (caught sent.1)
    · intro c l a h h' s₁ s₁' msg _ _ hh hs₁ _
      exact Dispatch.handOver_abreast hI.toMirrored hF (hA a) hh _ c l msg (hF.reported _ hs₁)

end ContextLog
