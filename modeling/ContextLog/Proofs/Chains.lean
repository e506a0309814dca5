import ContextLog.Proofs.Deriving
import ContextLog.Proofs.Substitution
/-!
# Chains of contexts

What a chain of calls comes to is told for each thing by the calls about that thing alone: the last one counts, and
without any it is as at the start (`Context.After`). So the order of calls about different things makes no difference,
neither to what can be asked of the context nor to any entry that is sent through it (`contexts_derived`).
-/

namespace ContextLog

open Session

variable {s s' s₁ s₂ : Store} {c r : ContextRef} {b b' : Context} {d : Derivation} {ds ds' : List Derivation}
  {object source : Source} {f : Failure}

/-! ## Keys -/

namespace Value

mutual

/-- A value is refused as a key if its form has a part that may change. -/
theorem mutableType?_eq_none_iff : ∀ v : Value, v.mutableType? = Option.none ↔ .mutable ∉ v.keyForm
  | .tuple items => by simp [mutableType?, keyForm, firstMutable_eq_none_iff items]
  | .list _ | .dict _ | .record _ _ => by simp [mutableType?, keyForm]
  | .none | .bool _ | .int _ | .text _ | .bytes _ | .level _ | .error _ _ _ _ | .object _ | .explosive _ _ _ _ => by
    simp [mutableType?, keyForm]
  | .float x => by
    simp only [mutableType?, keyForm]
    cases x.toInt? <;> simp

theorem firstMutable_eq_none_iff : ∀ vs : List Value,
    mutableType?.firstMutable vs = Option.none ↔ .mutable ∉ keyForm.formList vs
  | [] => by simp [mutableType?.firstMutable, keyForm.formList]
  | v :: rest => by
    rw [keyForm.formList, List.mem_append, not_or, ← mutableType?_eq_none_iff v, ← firstMutable_eq_none_iff rest,
      mutableType?.firstMutable]
    cases v.mutableType? <;> simp

end

theorem mutableType?_of_sameKey {k k' : Value} (h : k.SameKey k') (hk : k.mutableType? = Option.none) :
    k'.mutableType? = Option.none := by
  rw [mutableType?_eq_none_iff] at hk ⊢
  exact (show k.keyForm = k'.keyForm from h) ▸ hk

end Value

/-! ## What a chain comes to -/

/-- What a call is about; a value is about its key. -/
inductive Derivation.Kind
  | level
  | appender
  | source
  | value (form : List Value.KeyAtom)
  deriving DecidableEq

namespace Derivation

def kind : Derivation → Kind
  | .level _ => .level
  | .appender _ => .appender
  | .source _ => .source
  | .value key _ => .value key.keyForm

/-- The level that a call is given. -/
def level? : Derivation → Option Level
  | .level v => v.level?
  | _ => none

/-- The appender that a call is given, which may be none at all. -/
def appender? : Derivation → Option (Option AppenderRef)
  | .appender a => some a
  | _ => none

/-- The object that a call is given as a source. -/
def source? : Derivation → Option Source
  | .source object => some object
  | _ => none

/-- The value that a call is given for a key. -/
def valueFor? (key : Value) : Derivation → Option Value
  | .value k v => if k.SameKey key then some v else none
  | _ => none

theorem level?_eq_none (h : d.kind ≠ .level) : d.level? = none := by
  cases d with
  | level v => exact absurd rfl h
  | _ => rfl

theorem appender?_eq_none (h : d.kind ≠ .appender) : d.appender? = none := by
  cases d with
  | appender a => exact absurd rfl h
  | _ => rfl

theorem valueFor?_eq_none {key : Value} (h : d.kind ≠ .value key.keyForm) : d.valueFor? key = none := by
  cases d with
  | value k v => exact if_neg fun hk => h (congrArg Kind.value hk)
  | _ => rfl

end Derivation

open ContextLog.Derivation

section last

variable {α : Type} {pick : Derivation → Option α}

/-- What the last call is given that is given anything of the sort. -/
def lastOf? (pick : Derivation → Option α) (ds : List Derivation) : Option α := ds.reverse.findSome? pick

theorem lastOf?_append (pick : Derivation → Option α) (ds ds' : List Derivation) :
    lastOf? pick (ds ++ ds') = (lastOf? pick ds').or (lastOf? pick ds) := by
  rw [lastOf?, List.reverse_append, List.findSome?_append]
  rfl

theorem lastOf?_singleton (pick : Derivation → Option α) (d : Derivation) : lastOf? pick [d] = pick d :=
  List.findSome?_singleton

theorem lastOf?_cons (pick : Derivation → Option α) (d : Derivation) (ds : List Derivation) :
    lastOf? pick (d :: ds) = (lastOf? pick ds).or (pick d) := by
  rw [← lastOf?_singleton pick d, ← lastOf?_append]
  rfl

end last

/-- A context after some calls. -/
structure Context.After (b : Context) (ds : List Derivation) (b' : Context) : Prop where
  level : b'.level = ((lastOf? level? ds).map Value.level).getD b.level
  appender : b'.appender = (lastOf? appender? ds).getD b.appender
  source : lastOf? source? ds = none → b'.source = b.source
  value : ∀ key, b'.values.get? key = (lastOf? (valueFor? key) ds).or (b.values.get? key)

namespace Context.After

theorem nil (b : Context) : b.After [] b := ⟨rfl, rfl, fun _ => rfl, fun _ => rfl⟩

theorem of_makes (h : d.Makes s b b' s₁) : b.After [d] b' := by
  cases h with
  | level h =>
    refine ⟨?_, rfl, fun _ => rfl, fun _ => rfl⟩
    rw [lastOf?_singleton, Derivation.level?, Value.level?_eq_some_iff.2 h]
    rfl
  | appender a => exact ⟨rfl, rfl, fun _ => rfl, fun _ => rfl⟩
  | source h => exact ⟨rfl, rfl, nofun, fun _ => rfl⟩
  | @value key h v =>
    refine ⟨rfl, rfl, fun _ => rfl, fun k => ?_⟩
    rw [lastOf?_singleton, Derivation.valueFor?, Fields.get?_set]
    split <;> rfl

theorem append {b₁ : Context} (h : b.After ds b₁) (h' : b₁.After ds' b') : b.After (ds ++ ds') b' where
  level := by
    rw [h'.level, h.level, lastOf?_append]
    cases lastOf? level? ds' <;> rfl
  appender := by
    rw [h'.appender, h.appender, lastOf?_append]
    cases lastOf? appender? ds' <;> rfl
  source hnone := by
    rw [lastOf?_append, Option.or_eq_none_iff] at hnone
    rw [h'.source hnone.1, h.source hnone.2]
  value key := by rw [h'.value, h.value, lastOf?_append, Option.or_assoc]

end Context.After

theorem derive_after (h : derive c d s = .ok r s') : (s.context c).After [d] (s'.context r) := by
  obtain ⟨-, b, s₁, hmakes, rfl, rfl⟩ := derive_ok h
  rw [Store.context_withContexts]
  exact .of_makes hmakes

theorem deriveAll_after (h : deriveAll c ds s = .ok r s') : (s.context c).After ds (s'.context r) := by
  induction ds generalizing c s with
  | nil =>
    cases h
    exact .nil _
  | cons d ds ih =>
    obtain ⟨c₁, s₁, hd, hds⟩ := bind_ok h
    exact (derive_after hd).append (ih hds)

/-- Every call makes one context, and the last one is the result. -/
theorem deriveAll_ref (h : deriveAll c ds s = .ok r s') :
    ds = [] ∧ r = c ∨ r.index + 1 = s.contexts.length + ds.length := by
  induction ds generalizing c s with
  | nil =>
    cases h
    exact .inl ⟨rfl, rfl⟩
  | cons d ds ih =>
    obtain ⟨c₁, s₁, hd, hds⟩ := bind_ok h
    obtain ⟨-, b, s₂, hmakes, rfl, rfl⟩ := derive_ok hd
    have hnew : (s₂.withContexts (s₂.contexts ++ [b])).contexts.length = s.contexts.length + 1 := by
      simp [Store.withContexts, hmakes.contexts]
    rw [List.length_cons]
    rcases ih hds with ⟨rfl, rfl⟩ | href
    · rw [hmakes.contexts]
      exact .inr rfl
    · exact .inr (by omega)

theorem deriveAll_ref_eq {r' : ContextRef} {s'' : Store} (h : deriveAll c ds s = .ok r s')
    (h' : deriveAll c ds' s = .ok r' s'') (hlength : ds'.length = ds.length) : r' = r := by
  rcases deriveAll_ref h with ⟨rfl, rfl⟩ | href
  · obtain rfl : ds' = [] := List.length_eq_zero_iff.1 hlength
    cases h.symm.trans h'
    rfl
  · rcases deriveAll_ref h' with ⟨rfl, rfl⟩ | href'
    · obtain rfl : ds = [] := List.length_eq_zero_iff.1 hlength.symm
      cases h.symm.trans h'
      rfl
    · cases r
      cases r'
      dsimp only at href href'
      congr 1
      omega

/-- Where the empty context has no appender, it falls back on the default one like any other. -/
theorem Store.appenderOf_eq (hs : s.contexts.head? = some {}) (defaults : Defaults) (c : ContextRef) :
    s.appenderOf defaults c = (s.context c).appender.or defaults.appender := by
  unfold appenderOf
  split
  · obtain rfl : c = .background := ‹_›
    have hempty : s.context .background = {} := by
      rw [List.head?_eq_getElem?] at hs
      rw [context, ContextRef.background, hs]
      rfl
    rw [hempty]
    rfl
  · rfl

theorem Store.Grown.head? (h : s.Grown s') (hs : s.contexts.head? = some {}) : s'.contexts.head? = some {} := by
  obtain ⟨new, hnew⟩ := h.contexts
  rw [← hnew, List.head?_append, hs]
  rfl

theorem appenderOf_derived (hs : s.contexts.head? = some {}) (h : deriveAll c ds s = .ok r s') (defaults : Defaults) :
    s'.appenderOf defaults r = match lastOf? appender? ds with
      | some a => a.or defaults.appender
      | none => (s.context c).appender.or defaults.appender := by
  rw [Store.appenderOf_eq ((deriveAll_grown h).head? hs), (deriveAll_after h).appender]
  cases lastOf? appender? ds <;> rfl

theorem levelOf_derived (h : deriveAll c ds s = .ok r s') (defaults : Defaults) :
    s'.levelOf defaults r = match lastOf? level? ds with
      | some l => .level l
      | none => match (s.context c).level with
        | .none => .level defaults.level
        | attached => attached := by
  unfold Store.levelOf
  rw [(deriveAll_after h).level]
  cases lastOf? level? ds <;> rfl

/-- The source is what the last object is taken for at its call, and the copy of a mapping stays as it is. -/
theorem sourceOf_derived {before after : List Derivation} (hafter : lastOf? source? after = none)
    (h : deriveAll c (before ++ .source object :: after) s = .ok r s') :
    ∃ r₁ s₁ s₂, deriveAll c before s = .ok r₁ s₁ ∧ s₁.TakesFor object (s'.sourceOf r) s₂ ∧
      s₂.mappings <+: s'.mappings := by
  rw [deriveAll_append] at h
  obtain ⟨r₁, s₁, hbefore, h⟩ := bind_ok h
  obtain ⟨r₂, s₂, hcall, hrest⟩ := bind_ok h
  obtain ⟨-, b, s₃, hmakes, rfl, rfl⟩ := derive_ok hcall
  cases hmakes with
  | source htakes =>
    refine ⟨r₁, s₁, s₃, hbefore, ?_, (deriveAll_grown hrest).mappings⟩
    rw [Store.sourceOf, (deriveAll_after hrest).source hafter, Store.context_withContexts]
    exact htakes

theorem value_derived {key v : Value} (hv : lastOf? (valueFor? key) ds = some v)
    (h : deriveAll c ds s = .ok r s') (default : Value) : (s'.context r).value key default = .ok v := by
  have hkey : key.mutableType? = none := by
    obtain ⟨d, hmem, hd⟩ := List.exists_of_findSome?_eq_some hv
    have hfits := deriveAll_ok_iff.1 ⟨r, s', h⟩ d (List.mem_reverse.1 hmem)
    cases d with
    | value k v' =>
      by_cases hk : k.SameKey key
      · exact Value.mutableType?_of_sameKey hk hfits
      · rw [Derivation.valueFor?, if_neg hk] at hd
        cases hd
    | _ => cases hd
  rw [Context.value, hkey, (deriveAll_after h).value, hv]
  rfl

theorem value_kept {key : Value} (hv : lastOf? (valueFor? key) ds = none) (h : deriveAll c ds s = .ok r s')
    (default : Value) : (s'.context r).value key default = (s.context c).value key default := by
  rw [Context.value, Context.value, (deriveAll_after h).value, hv]
  rfl

/-! ## Reorderings -/

/-- The same calls in another order, where calls about the same thing stand in the same order. -/
def Reorders (ds ds' : List Derivation) : Prop := ∀ k, ds'.filter (·.kind = k) = ds.filter (·.kind = k)

theorem Reorders.perm (h : Reorders ds ds') : ds'.Perm ds := by
  induction ds generalizing ds' with
  | nil =>
    have hnil : ds' = [] := List.eq_nil_iff_forall_not_mem.2 fun d hd => by
      have hmem : d ∈ ds'.filter (·.kind = d.kind) := List.mem_filter.2 ⟨hd, decide_eq_true rfl⟩
      rw [h] at hmem
      cases hmem
    rw [hnil]
  | cons d ds ih =>
    -- The first call is also the first one of its kind in the other chain.
    have hd := h d.kind
    rw [List.filter_cons, if_pos (decide_eq_true rfl)] at hd
    obtain ⟨before, after, rfl, hbefore, -, -⟩ := List.filter_eq_cons_iff.1 hd
    have hrest : Reorders ds (before ++ after) := by
      intro k
      have hk := h k
      rw [List.filter_append, List.filter_cons, List.filter_cons] at hk
      rw [List.filter_append]
      by_cases hkind : d.kind = k
      · have hnone : before.filter (·.kind = k) = [] := by
          rw [List.filter_eq_nil_iff, ← hkind]
          exact hbefore
        rw [if_pos (decide_eq_true hkind), if_pos (decide_eq_true hkind), hnone] at hk
        rw [hnone]
        exact (List.cons.inj hk).2
      · rwa [if_neg (by simpa using hkind), if_neg (by simpa using hkind)] at hk
    exact List.perm_middle.trans ((ih hrest).cons d)

/-- Two calls about different things change places. -/
theorem Reorders.swap {e : Derivation} (h : d.kind ≠ e.kind) (before after : List Derivation) :
    Reorders (before ++ d :: e :: after) (before ++ e :: d :: after) := by
  intro k
  by_cases hd : d.kind = k
  · have he : e.kind ≠ k := fun he => h (hd.trans he.symm)
    simp [hd, he]
  · simp [List.filter_cons, hd]

/-- What the last call about something is given is told by the calls about that alone. -/
theorem lastOf?_filter {α : Type} {pick : Derivation → Option α} {k : Kind} (hpick : ∀ d, d.kind ≠ k → pick d = none)
    (ds : List Derivation) : lastOf? pick (ds.filter (·.kind = k)) = lastOf? pick ds := by
  induction ds with
  | nil => rfl
  | cons d ds ih =>
    rw [lastOf?_cons, List.filter_cons]
    by_cases hd : d.kind = k
    · rw [if_pos (decide_eq_true hd), lastOf?_cons, ih]
    · rw [if_neg (by simpa using hd), ih, hpick d hd, Option.or_none]

theorem Reorders.lastOf? {α : Type} {pick : Derivation → Option α} (h : Reorders ds ds') (k : Kind)
    (hpick : ∀ d, d.kind ≠ k → pick d = none) : lastOf? pick ds' = lastOf? pick ds := by
  rw [← lastOf?_filter hpick, h k, lastOf?_filter hpick]

theorem Store.TakesFor.withContexts (h : s.TakesFor object source s₁) (cs : List Context) :
    (s.withContexts cs).TakesFor object source (s₁.withContexts cs) := by
  cases h with
  | itself h => exact .itself h
  | fixed h => exact .fixed h
  | contextual hm hσ h => exact .contextual hm hσ h
  | lazy hm hσ h hfour => exact .lazy hm hσ h hfour

/-- Of a chain, the calls about sources alone make the same mappings and come to the same source. -/
theorem deriveAll_sources (h : deriveAll c ds s = .ok r s') (cs : List Context) (c' : ContextRef)
    (hc : ((s.withContexts cs).context c').source = (s.context c).source) :
    ∃ r' cs', deriveAll c' (ds.filter (·.kind = .source)) (s.withContexts cs) = .ok r' (s'.withContexts cs') ∧
      ((s'.withContexts cs').context r').source = (s'.context r).source := by
  induction ds generalizing c s c' cs with
  | nil =>
    cases h
    exact ⟨c', cs, rfl, hc⟩
  | cons d ds ih =>
    obtain ⟨c₁, s₁, hcall, hrest⟩ := bind_ok h
    have hafter := derive_after hcall
    obtain ⟨-, b, s₂, hmakes, rfl, rfl⟩ := derive_ok hcall
    cases hmakes with
    | @source object source _ htakes =>
      have hmakes' : (Derivation.source object).Makes _ ((s.withContexts cs).context c') _ _ :=
        .source (htakes.withContexts cs)
      have hcall' := derive_of_makes hmakes'
      obtain ⟨r', cs', hds, hsource⟩ := ih hrest (cs ++ [{ (s.withContexts cs).context c' with source }]) ⟨cs.length⟩
        (by rw [Store.context_withContexts, Store.context_withContexts])
      refine ⟨r', cs', ?_, hsource⟩
      rw [List.filter_cons_of_pos (by rfl), deriveAll, run_bind_ok hcall']
      exact hds
    | _ =>
      obtain ⟨r', cs', hds, hsource⟩ := ih hrest cs c' (hc.trans (hafter.source rfl).symm)
      exact ⟨r', cs', hds, hsource⟩

/-- A reordered chain comes to a context that is alike. -/
theorem Reorders.derives (hre : Reorders ds ds') (h : deriveAll c ds s = .ok r s') :
    ∃ s'', deriveAll c ds' s = .ok r s'' ∧ s''.mappings = s'.mappings ∧ (s'.context r).Alike (s''.context r) := by
  have hperm := hre.perm
  obtain ⟨r', s'', h'⟩ : ∃ r' s'', deriveAll c ds' s = .ok r' s'' :=
    deriveAll_ok_iff.2 fun d hd => deriveAll_ok_iff.1 ⟨r, s', h⟩ d (hperm.mem_iff.1 hd)
  obtain rfl := deriveAll_ref_eq h h' hperm.length_eq
  -- Both chains have the same calls about sources.
  obtain ⟨r₁, cs₁, h₁, hsource₁⟩ := deriveAll_sources h s.contexts c rfl
  obtain ⟨r₂, cs₂, h₂, hsource₂⟩ := deriveAll_sources h' s.contexts c rfl
  rw [hre .source, h₁] at h₂
  obtain ⟨rfl, hstores⟩ := EStateM.Result.ok.inj h₂
  have hafter := deriveAll_after h
  have hafter' := deriveAll_after h'
  refine ⟨s'', h', (congrArg Store.mappings hstores).symm, ?_⟩
  constructor
  case level =>
    rw [hafter'.level, hafter.level, hre.lastOf? .level fun _ => level?_eq_none]
  case appender =>
    rw [hafter'.appender, hafter.appender, hre.lastOf? .appender fun _ => appender?_eq_none]
  case source => rw [← hsource₂, ← hsource₁, hstores]
  case value =>
    intro key default
    have hget : (s''.context r').values.get? key = (s'.context r').values.get? key := by
      rw [hafter'.value, hafter.value, hre.lastOf? (.value key.keyForm) fun _ => valueFor?_eq_none]
    rw [Context.value, Context.value, hget]

/-! ## The law -/

/-- What a chain of calls from one context to another has come to. -/
structure Store.Derived (s : Store) (c : ContextRef) (ds : List Derivation) (r : ContextRef) (s' : Store) : Prop where
  /-- The threshold is the level of the last call that is given one, or else that of the start, or else the
  default one. -/
  level : ∀ defaults, s'.levelOf defaults r = match lastOf? level? ds with
    | some l => .level l
    | none => match (s.context c).level with
      | .none => .level defaults.level
      | attached => attached
  /-- The appender is the one of the last call that is given one, or else that of the start. If that is none, it is
  the default one. -/
  appender : ∀ defaults, s'.appenderOf defaults r = match lastOf? appender? ds with
    | some a => a.or defaults.appender
    | none => (s.context c).appender.or defaults.appender
  /-- The source is what the object of the last call for one was taken for. -/
  source : ∀ before object after, ds = before ++ .source object :: after → lastOf? source? after = none →
    ∃ r₁ s₁ s₂, deriveAll c before s = .ok r₁ s₁ ∧ s₁.TakesFor object (s'.sourceOf r) s₂ ∧
      s₂.mappings <+: s'.mappings
  noSource : lastOf? source? ds = none → s'.sourceOf r = (s.context c).source
  /-- Under a key stands what the last call for it was given. -/
  value : ∀ key default v, lastOf? (valueFor? key) ds = some v → (s'.context r).value key default = .ok v
  noValue : ∀ key default, lastOf? (valueFor? key) ds = none →
    (s'.context r).value key default = (s.context c).value key default

/-- Nothing can tell the contexts of one number in two stores apart. -/
structure Store.SameFor (r : ContextRef) (s' s'' : Store) : Prop where
  level : ∀ defaults, s''.levelOf defaults r = s'.levelOf defaults r
  appender : ∀ defaults, s''.appenderOf defaults r = s'.appenderOf defaults r
  source : s''.sourceOf r = s'.sourceOf r
  /-- What the sources hold. -/
  mappings : s''.mappings = s'.mappings
  value : ∀ key default, (s''.context r).value key default = (s'.context r).value key default
  dispatch : (s'.context r).Indistinct (s''.context r)

/-- What becomes of a chain of calls. -/
structure Store.Derives (s : Store) (c : ContextRef) (ds : List Derivation) : Prop where
  /-- It comes to its end if all calls fit. -/
  ends : (∃ r s', deriveAll c ds s = .ok r s') ↔ ∀ d ∈ ds, d.Fits s
  derived : ∀ r s', deriveAll c ds s = .ok r s' → s.Derived c ds r s'
  /-- The order of calls about different things makes no difference. -/
  reordered : ∀ ds' r s', Reorders ds ds' → deriveAll c ds s = .ok r s' →
    ∃ s'', deriveAll c ds' s = .ok r s'' ∧ s'.SameFor r s''
  /-- A call that does not fit is refused, and all is left as the calls before it have left it. -/
  refused : ∀ f s', deriveAll c ds s = .error f s' →
    ∃ before d after r, ds = before ++ d :: after ∧ ¬ d.Fits s ∧ f.kind = d.refusal ∧ deriveAll c before s = .ok r s'
  /-- The contexts that have been derived stay as they are, whatever becomes of later calls. -/
  kept : ∀ before after, ds = before ++ after →
    ((deriveAll c before).leaves s).Grown ((deriveAll c ds).leaves s)

theorem Store.SameFor.of_alike {s'' : Store} (hs' : s'.contexts.head? = some {}) (hs'' : s''.contexts.head? = some {})
    (hmappings : s''.mappings = s'.mappings) (h : (s'.context r).Alike (s''.context r)) : s'.SameFor r s'' where
  level defaults := by rw [levelOf, levelOf, h.level]
  appender defaults := by rw [appenderOf_eq hs'', appenderOf_eq hs', h.appender]
  source := h.source
  mappings := hmappings
  value := h.value
  dispatch := h.indistinct

/-- From every context each chain of calls comes to what its calls say, each kind of them by itself: the last call
about a thing counts, and calls about other things may stand anywhere. A call that is refused takes nothing back. -/
theorem contexts_derived (hs : s.contexts.head? = some {}) (c : ContextRef) (ds : List Derivation) :
    s.Derives c ds := by
  constructor
  case ends => exact deriveAll_ok_iff
  case derived =>
    intro r s' h
    constructor
    case level => exact levelOf_derived h
    case appender => exact appenderOf_derived hs h
    case source =>
      rintro before object after rfl hafter
      exact sourceOf_derived hafter h
    case noSource => exact (deriveAll_after h).source
    case value => exact fun key default v hv => value_derived hv h default
    case noValue => exact fun key default hv => value_kept hv h default
  case reordered =>
    intro ds' r s' hre h
    obtain ⟨s'', h', hmappings, halike⟩ := hre.derives h
    exact ⟨s'', h', .of_alike ((deriveAll_grown h).head? hs) ((deriveAll_grown h').head? hs) hmappings halike⟩
  case refused =>
    intro f s' h
    rcases deriveAll_cases c ds s with ⟨-, r, s₁, hok⟩ | ⟨before, d, after, r, s₁, f', hds, hno, hbefore, hf, hkind⟩
    · cases hok.symm.trans h
    · cases hf.symm.trans h
      exact ⟨before, d, after, r, hds, hno, hkind, hbefore⟩
  case kept =>
    rintro before after rfl
    have hkeeps := fun r => (deriveAll_keeps ((deriveAll c before).leaves s) r after).leaves (.refl _)
    cases hbefore : deriveAll c before s with
    | ok r s₁ =>
      have hrun : deriveAll c (before ++ after) s = deriveAll r after s₁ := by
        rw [deriveAll_append, run_bind_ok hbefore]
      rw [leaves_congr hrun]
      rw [leaves_ok hbefore] at hkeeps ⊢
      exact hkeeps r
    | error f s₁ =>
      have hrun : deriveAll c (before ++ after) s = .error f s₁ := by
        rw [deriveAll_append, run_bind_error hbefore]
      rw [leaves_error hbefore, leaves_error hrun]
      exact .refl _

/-- A store with an appender, and with a function that gives the user of the context. -/
def requestStore : Store where
  producers := [{
    signature := some (List.replicate 4 { name := "x", passing := .positional })
    program := [.contextValue (.str "user") (.str "user")]
    typeName := "function"
    representation := "<function>" }]
  appenders := [.recording [] []]

/-- Calls for a request, the last of which takes its appender away again. -/
def requestChain : List Derivation :=
  [.level (.int 3)] ++ .value (.str "user") (.str "ada") :: .source (.producer ⟨0⟩) ::
    [.appender (some ⟨0⟩), .level (.level .panic), .value (.str "user") (.str "eve"), .appender none]

/-- The same calls, with the source before the first value. -/
def reorderedChain : List Derivation :=
  [.level (.int 3)] ++ .source (.producer ⟨0⟩) :: .value (.str "user") (.str "ada") ::
    [.appender (some ⟨0⟩), .level (.level .panic), .value (.str "user") (.str "eve"), .appender none]

theorem requestChain_fits : ∀ d ∈ requestChain, d.Fits requestStore := by
  have hfour : Signature.CanTake (List.replicate 4 { name := "x", passing := .positional }) 4 :=
    (Signature.accepts_iff_canTake _ _).1 (by decide)
  simp only [requestChain, List.cons_append, List.nil_append, List.forall_mem_cons]
  exact ⟨⟨.warn, rfl⟩, rfl, .called rfl (.inl hfour), trivial, ⟨.panic, rfl⟩, rfl, trivial, nofun⟩

theorem contexts_derived_requestChain :
    requestStore.contexts.head? = some {} ∧ requestStore.Derives .background requestChain ∧
      ∃ r s' s'', deriveAll .background requestChain requestStore = .ok r s' ∧
        deriveAll .background reorderedChain requestStore = .ok r s'' ∧ s'.SameFor r s'' := by
  have hchain : requestStore.Derives .background requestChain := contexts_derived rfl .background requestChain
  obtain ⟨r, s', hrun⟩ := hchain.ends.2 requestChain_fits
  have hkinds : (Derivation.value (.str "user") (.str "ada")).kind ≠ (Derivation.source (.producer ⟨0⟩)).kind := nofun
  obtain ⟨s'', hrun', hsame⟩ := hchain.reordered reorderedChain r s' (.swap hkinds _ _) hrun
  exact ⟨rfl, hchain, r, s', s'', hrun, hrun', hsame⟩

end ContextLog
