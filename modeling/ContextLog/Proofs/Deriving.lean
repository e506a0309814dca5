import ContextLog.Proofs.Arity
import ContextLog.Proofs.Renaming
/-!
# Deriving contexts

A context is derived from another one by a call, which sets one thing and leaves all else as it is. A call that fits
makes one context and at most one mapping, and any other one is refused and changes nothing (`derive_cases`). Along a
chain of calls each starts from the context of the one before it; the chain comes to its end if all calls fit, and
otherwise to the first one that does not (`deriveAll_cases`).
-/

namespace ContextLog

open Session

variable {s s' s₁ : Store} {c r : ContextRef} {b b' : Context} {d : Derivation} {ds ds' : List Derivation}
  {object source : Source} {f : Failure}

/-- Which objects are supported is a matter of the producers. -/
theorem Store.Supports.congr (h : s.Supports object) (hp : s'.producers = s.producers) : s'.Supports object := by
  cases h with
  | itself h => exact .itself h
  | fixed h =>
    cases object with
    | mapping m => exact .fixed rfl
    | producer p => exact .fixed ((congrArg Producer.asMapping (Store.producer_congr hp p)).trans h)
    | value v =>
      cases v with
      | dict entries => exact .fixed rfl
      | _ => cases h
    | _ => cases h
  | called hσ h => exact .called ((congrArg Producer.signature (Store.producer_congr hp _)).trans hσ) h

/-! ## One call -/

/-- Derives a context from another one. -/
def derive (c : ContextRef) (d : Derivation) : Session ContextRef := do
  newContext (← d.apply ((← get).context c))

namespace Derivation

/-- What a call asks for can be had. -/
def Fits (s : Store) : Derivation → Prop
  | .level v => ∃ l : Level, v.SameKey (.level l)
  | .appender _ => True
  | .source object => s.Supports object
  | .value key _ => key.mutableType? = none

/-- The kind of the error for a call that does not fit. -/
def refusal : Derivation → ErrorKind
  | level _ => .value
  | _ => .type

/-- The context that a call makes of another one, with the store behind that. -/
inductive Makes (s : Store) (b : Context) : Derivation → Context → Store → Prop
  | level {v : Value} {l : Level} (h : v.SameKey (.level l)) : Makes s b (.level v) { b with level := .level l } s
  | appender (a : Option AppenderRef) : Makes s b (.appender a) { b with appender := a } s
  | source {object source : Source} {s₁ : Store} (h : s.TakesFor object source s₁) :
      Makes s b (.source object) { b with source } s₁
  | value {key : Value} (h : key.mutableType? = none) (v : Value) :
      Makes s b (.value key v) { b with values := b.values.set key v } s

theorem Fits.congr (h : d.Fits s) (hp : s'.producers = s.producers) : d.Fits s' := by
  cases d with
  | source object => exact Store.Supports.congr h hp
  | _ => exact h

theorem Makes.apply (h : d.Makes s b b' s₁) : d.apply b s = .ok b' s₁ := by
  cases h with
  | @level v l h =>
    have hlift : Session.lift (Level.ofValue v) s = .ok l s := by rw [Level.ofValue_of_sameKey h, run_lift_ok]
    exact run_bind_ok hlift
  | appender a => rfl
  | source h => exact run_bind_ok h.asSource
  | value h v => rw [Derivation.apply, Context.withValue, h, run_lift_ok]

/-- A call that does not fit is refused, and changes nothing. -/
theorem apply_cases (d : Derivation) (b : Context) (s : Store) :
    (d.Fits s ∧ ∃ b' s₁, d.Makes s b b' s₁) ∨ (¬ d.Fits s ∧ ∃ f, d.apply b s = .error f s ∧ f.kind = d.refusal) := by
  cases d with
  | level v =>
    by_cases h : ∃ l : Level, v.SameKey (.level l)
    · obtain ⟨l, hl⟩ := h
      exact .inl ⟨⟨l, hl⟩, _, _, .level hl⟩
    · obtain ⟨f, hf, hkind⟩ := Level.ofValue_error fun l hl => h ⟨l, hl⟩
      have hlift : Session.lift (Level.ofValue v) s = .error f s := by rw [hf, run_lift_error]
      exact .inr ⟨h, f, run_bind_error hlift, hkind⟩
  | appender a => exact .inl ⟨trivial, _, _, .appender a⟩
  | source object =>
    rcases asSource_cases object s with ⟨hfits, source, s₁, htakes⟩ | ⟨hno, f, hf, hkind⟩
    · exact .inl ⟨hfits, _, _, .source htakes⟩
    · exact .inr ⟨hno, f, run_bind_error hf, hkind⟩
  | value key v =>
    cases h : key.mutableType? with
    | none => exact .inl ⟨h, _, _, .value h v⟩
    | some type =>
      have hno : ¬ Fits s (.value key v) := fun hfits => by cases h.symm.trans hfits
      refine .inr ⟨hno, .mapping (.unhashable type), ?_, rfl⟩
      rw [apply, Context.withValue, h, run_lift_error]

end Derivation

namespace Store

/-- A store in which contexts and mappings have been made, and nothing else has changed. -/
structure Grown (s s' : Store) : Prop where
  contexts : s.contexts <+: s'.contexts
  mappings : s.mappings <+: s'.mappings
  rest : s'.rest = s.rest

theorem Grown.refl (s : Store) : s.Grown s := ⟨List.prefix_refl _, List.prefix_refl _, rfl⟩

theorem Grown.producers (h : s.Grown s') : s'.producers = s.producers := by
  show s'.rest.producers = s.rest.producers
  rw [h.rest]

theorem grown_roomy (s : Store) : Roomy (s.Grown ·) := fun _ _ h =>
  ⟨h.contexts, h.mappings.trans (List.prefix_append _ _), h.rest⟩

/-- The store with other contexts. -/
def withContexts (s : Store) (cs : List Context) : Store := { s with contexts := cs }

theorem context_withContexts (s : Store) (cs : List Context) (b : Context) :
    (s.withContexts (cs ++ [b])).context ⟨cs.length⟩ = b := by
  simp [withContexts, context]

end Store

theorem Store.TakesFor.contexts (h : s.TakesFor object source s₁) : s₁.contexts = s.contexts := by cases h <;> rfl

theorem Derivation.Makes.contexts (h : d.Makes s b b' s₁) : s₁.contexts = s.contexts := by
  cases h with
  | source h => exact h.contexts
  | _ => rfl

theorem derive_of_makes (h : d.Makes s (s.context c) b s₁) :
    derive c d s = .ok ⟨s₁.contexts.length⟩ (s₁.withContexts (s₁.contexts ++ [b])) := by
  rw [derive, run_bind_ok run_get, run_bind_ok h.apply]
  rfl

/-- A call that fits makes one context, and any other one changes nothing. -/
theorem derive_cases (c : ContextRef) (d : Derivation) (s : Store) :
    (d.Fits s ∧ ∃ b s₁, d.Makes s (s.context c) b s₁) ∨
      (¬ d.Fits s ∧ ∃ f, derive c d s = .error f s ∧ f.kind = d.refusal) := by
  rcases d.apply_cases (s.context c) s with hmakes | ⟨hno, f, hf, hkind⟩
  · exact .inl hmakes
  · refine .inr ⟨hno, f, ?_, hkind⟩
    rw [derive, run_bind_ok run_get, run_bind_error hf]

theorem derive_ok (h : derive c d s = .ok r s') : d.Fits s ∧ ∃ b s₁, d.Makes s (s.context c) b s₁ ∧
    r = ⟨s₁.contexts.length⟩ ∧ s' = s₁.withContexts (s₁.contexts ++ [b]) := by
  rcases derive_cases c d s with ⟨hfits, b, s₁, hmakes⟩ | ⟨-, f, hf, -⟩
  · cases (derive_of_makes hmakes).symm.trans h
    exact ⟨hfits, b, s₁, hmakes, rfl, rfl⟩
  · cases hf.symm.trans h

theorem derive_grown (c : ContextRef) (d : Derivation) (s : Store) : (derive c d).Keeps (s.Grown ·) := by
  refine .get fun s' hs => ?_
  refine Session.Keeps.bind (d.apply_roomy s.grown_roomy (s'.context c)) (fun b => ?_) s' hs
  exact fun s₁ h => ⟨⟨h.contexts.trans (List.prefix_append _ _), h.mappings, h.rest⟩, trivial⟩

/-! ## Many calls -/

/-- Derives contexts one from the other. -/
def deriveAll : ContextRef → List Derivation → Session ContextRef
  | c, [] => return c
  | c, d :: ds => do deriveAll (← derive c d) ds

theorem deriveAll_append (c : ContextRef) (ds ds' : List Derivation) :
    deriveAll c (ds ++ ds') = deriveAll c ds >>= fun r => deriveAll r ds' := by
  induction ds generalizing c with
  | nil => rfl
  | cons d ds ih =>
    show (derive c d >>= fun c => deriveAll c (ds ++ ds')) = (derive c d >>= fun c => deriveAll c ds) >>= _
    rw [bind_assoc]
    exact congrArg (derive c d >>= ·) (funext ih)

theorem deriveAll_keeps (s : Store) (c : ContextRef) (ds : List Derivation) : (deriveAll c ds).Keeps (s.Grown ·) := by
  induction ds generalizing c with
  | nil => exact .pure c
  | cons d ds ih => exact .bind (derive_grown c d s) ih

theorem deriveAll_grown (h : deriveAll c ds s = .ok r s') : s.Grown s' := by
  have hgrown := (deriveAll_keeps s c ds).leaves (.refl s)
  rwa [leaves_ok h] at hgrown

/-- Calls that all fit come to an end. Otherwise the first one that does not is refused, and changes nothing. -/
theorem deriveAll_cases (c : ContextRef) (ds : List Derivation) (s : Store) :
    ((∀ d ∈ ds, d.Fits s) ∧ ∃ r s', deriveAll c ds s = .ok r s') ∨
      ∃ before d after r s₁ f, ds = before ++ d :: after ∧ ¬ d.Fits s ∧ deriveAll c before s = .ok r s₁ ∧
        deriveAll c ds s = .error f s₁ ∧ f.kind = d.refusal := by
  induction ds generalizing c s with
  | nil => exact .inl ⟨nofun, c, s, rfl⟩
  | cons d ds ih =>
    rcases derive_cases c d s with ⟨hfits, b, s₁, hmakes⟩ | ⟨hno, f, hf, hkind⟩
    · obtain ⟨c₁, s₂, hrun⟩ : ∃ c₁ s₂, derive c d s = .ok c₁ s₂ := ⟨_, _, derive_of_makes hmakes⟩
      have hproducers : s₂.producers = s.producers := by
        have hgrown := (derive_grown c d s).leaves (.refl s)
        rw [leaves_ok hrun] at hgrown
        exact hgrown.producers
      rcases ih c₁ s₂ with ⟨hall, r, s', hok⟩ | ⟨before, e, after, r, s', f, rfl, hno, hbefore, hf, hkind⟩
      · refine .inl ⟨List.forall_mem_cons.2 ⟨hfits, fun e he => (hall e he).congr hproducers.symm⟩, r, s', ?_⟩
        rw [deriveAll, run_bind_ok hrun, hok]
      · refine .inr ⟨d :: before, e, after, r, s', f, rfl, fun h => hno (h.congr hproducers), ?_, ?_, hkind⟩
        · rw [deriveAll, run_bind_ok hrun, hbefore]
        · rw [deriveAll, run_bind_ok hrun, hf]
    · exact .inr ⟨[], d, ds, c, s, f, rfl, hno, rfl, run_bind_error hf, hkind⟩

theorem deriveAll_ok_iff : (∃ r s', deriveAll c ds s = .ok r s') ↔ ∀ d ∈ ds, d.Fits s := by
  rcases deriveAll_cases c ds s with ⟨hall, hok⟩ | ⟨before, d, after, _, _, f, rfl, hno, -, hf, -⟩
  · exact ⟨fun _ => hall, fun _ => hok⟩
  · constructor
    · rintro ⟨r, s', hok⟩
      cases hok.symm.trans hf
    · exact fun hall => absurd (hall d (by simp)) hno

end ContextLog
