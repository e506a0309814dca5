import ContextLog.Proofs.Calls
/-!
# What an object is taken for

A field source is made of an object by what the object is: a mapping gives fixed fields, and a function is called
with four arguments if it takes four and with none if it takes none. Which numbers a function takes can be told
from its parameters (`Signature.accepts_iff_canTake`). So a source that is made of an object never calls its
producer with a number of arguments that it does not take, whatever happens before the entry that needs its fields
(`sources_classified`). A source that a caller has made by hand is taken as it is, and then nothing says that its
producer can be called.
-/

namespace ContextLog

/-! ## Signatures -/

namespace Signature

/-- A function can be called with so many positional arguments: its first parameters take one each, what is left over
goes to a parameter that takes all further ones, and each parameter that gets none can be left out. -/
def CanTake (s : Signature) (n : Nat) : Prop :=
  ∃ taken left : List Parameter, s = taken ++ left ∧ (∀ p ∈ taken, p.isPositional) ∧ (∀ p ∈ left, p.isOptional) ∧
    (taken.length = n ∨ taken.length ≤ n ∧ ∃ r, left.head? = some r ∧ r.passing = .restPositional)

variable {s : Signature} {p : Parameter} {n : Nat}

theorem accepts_zero (s : Signature) : s.accepts 0 ↔ ∀ p ∈ s, p.isOptional := by
  induction s with
  | nil => simp [accepts]
  | cons p s ih => rw [accepts, Bool.and_eq_true, ih, List.forall_mem_cons]

theorem canTake_zero : s.CanTake 0 ↔ ∀ p ∈ s, p.isOptional := by
  constructor
  · rintro ⟨taken, left, rfl, -, hleft, hlength⟩
    have htaken : taken = [] := by
      rcases hlength with h | ⟨h, -⟩
      · exact List.length_eq_zero_iff.1 h
      · exact List.length_eq_zero_iff.1 (Nat.le_zero.1 h)
    rw [htaken]
    exact hleft
  · intro h
    exact ⟨[], s, rfl, nofun, h, .inl rfl⟩

theorem canTake_cons_positional (hp : p.isPositional) : CanTake (p :: s) (n + 1) ↔ s.CanTake n := by
  constructor
  · rintro ⟨taken, left, hs, htaken, hleft, hlength⟩
    cases taken with
    | nil =>
      -- The first parameter takes one argument only.
      obtain rfl : p :: s = left := hs
      obtain ⟨-, r, hr, hrest⟩ := hlength.resolve_left nofun
      obtain rfl : p = r := Option.some.inj hr
      simp [Parameter.isPositional, hrest] at hp
    | cons q taken =>
      obtain ⟨-, rfl⟩ := List.cons.inj hs
      refine ⟨taken, left, rfl, fun q hq => htaken q (List.mem_cons_of_mem _ hq), hleft, ?_⟩
      exact hlength.imp Nat.succ.inj fun h => ⟨Nat.le_of_succ_le_succ h.1, h.2⟩
  · rintro ⟨taken, left, rfl, htaken, hleft, hlength⟩
    refine ⟨p :: taken, left, rfl, List.forall_mem_cons.2 ⟨hp, htaken⟩, hleft, ?_⟩
    exact hlength.imp (congrArg Nat.succ) fun h => ⟨Nat.succ_le_succ h.1, h.2⟩

theorem canTake_cons_of_not_positional (hp : ¬ p.isPositional) :
    CanTake (p :: s) (n + 1) ↔ p.passing = .restPositional ∧ ∀ q ∈ s, q.isOptional := by
  constructor
  · rintro ⟨taken, left, hs, htaken, hleft, hlength⟩
    cases taken with
    | nil =>
      obtain rfl : p :: s = left := hs
      obtain ⟨-, r, hr, hrest⟩ := hlength.resolve_left nofun
      obtain rfl : p = r := Option.some.inj hr
      exact ⟨hrest, fun q hq => hleft q (List.mem_cons_of_mem _ hq)⟩
    | cons q taken =>
      obtain ⟨rfl, -⟩ := List.cons.inj hs
      exact absurd (htaken p List.mem_cons_self) hp
  · rintro ⟨hrest, hs⟩
    have hoptional : p.isOptional := by simp [Parameter.isOptional, hrest]
    exact ⟨[], p :: s, rfl, nofun, List.forall_mem_cons.2 ⟨hoptional, hs⟩, .inr ⟨Nat.zero_le _, p, rfl, hrest⟩⟩

/-- The check of a signature is right for each list of parameters. -/
theorem accepts_iff_canTake (s : Signature) (n : Nat) : s.accepts n ↔ s.CanTake n := by
  induction s generalizing n with
  | nil =>
    cases n with
    | zero => rw [accepts_zero, canTake_zero]
    | succ n =>
      refine ⟨nofun, ?_⟩
      rintro ⟨taken, left, hs, -, -, hlength⟩
      obtain ⟨rfl, rfl⟩ := List.append_eq_nil_iff.1 hs.symm
      obtain ⟨-, r, hr, -⟩ := hlength.resolve_left nofun
      cases hr
  | cons p s ih =>
    cases n with
    | zero => rw [accepts_zero, canTake_zero]
    | succ n =>
      by_cases hp : p.isPositional
      · rw [canTake_cons_positional hp, ← ih n, accepts]
        cases hpassing : p.passing <;> simp [Parameter.isPositional, hpassing] at hp ⊢
      · rw [canTake_cons_of_not_positional hp, ← accepts_zero, accepts]
        cases hpassing : p.passing <;> simp [Parameter.isPositional, hpassing] at hp ⊢

end Signature

/-! ## Classifying objects -/

variable {s b : Store} {p : ProducerRef} {object source : Source} {parameters : Signature}

/-- Is the object a field source already? -/
def Source.isSource : Source → Bool
  | .static _ | .lazy _ | .contextual _ => true
  | _ => false

namespace Store

/-- The entries of an object, if it is a mapping. -/
def entries? (s : Store) : Source → Option Fields
  | .mapping m => some (s.mapping m)
  | .value (.dict entries) => some (.ofList entries)
  | .producer p => (s.producer p).asMapping
  | _ => none

/-- What can be told of the parameters of a producer is so. -/
def TellsRight (s : Store) (p : ProducerRef) : Prop :=
  ∀ signature, (s.producer p).signature = some signature → (s.producer p).parameters = some signature

/-- A producer is a function with these parameters, which can be told, and no mapping. -/
def IsFunction (s : Store) (p : ProducerRef) (parameters : Signature) : Prop :=
  (s.producer p).asMapping = none ∧ (s.producer p).signature = some parameters ∧
    (s.producer p).parameters = some parameters

end Store

theorem asSource_of_isSource (h : object.isSource) : asSource object s = .ok object s := by
  cases object with
  | static m => rfl
  | lazy of => rfl
  | contextual of => rfl
  | _ => cases h

theorem makeStatic_of_entries {f : Fields} (h : s.entries? object = some f) :
    makeStatic object s = .ok (.static ⟨s.mappings.length⟩) { s with mappings := s.mappings ++ [f] } := by
  have hfixed : s.fixedFields object = .ok f := by
    cases object with
    | mapping m => exact congrArg Except.ok (Option.some.inj h)
    | value v =>
      cases v with
      | dict entries => exact congrArg Except.ok (Option.some.inj h)
      | _ => cases h
    | producer p =>
      have hmapping : (s.producer p).asMapping = some f := h
      rw [Store.fixedFields, hmapping]
    | _ => cases h
  unfold makeStatic
  rw [Session.run_bind_ok Session.run_get, hfixed]
  rfl

theorem asSource_producer (p : ProducerRef) (s : Store) : asSource (.producer p) s =
    (if (s.producer p).asMapping.isSome then makeStatic (.producer p)
      else match (s.producer p).signature with
        | none => throw .unsupportedArity
        | some signature =>
          if signature.accepts 4 then return .contextual (.producer p)
          else if signature.accepts 0 then return .lazy (.producer p)
          else throw .unsupportedArity : Session Source) s := rfl

/-- A mapping is copied, also one that can be called. -/
theorem asSource_of_entries {f : Fields} (h : s.entries? object = some f) :
    asSource object s = .ok (.static ⟨s.mappings.length⟩) { s with mappings := s.mappings ++ [f] } := by
  have hstatic := makeStatic_of_entries h
  cases object with
  | mapping m => exact hstatic
  | value v =>
    cases v with
    | dict entries => exact hstatic
    | _ => cases h
  | producer p =>
    have hmapping : (s.producer p).asMapping = some f := h
    rw [asSource_producer, hmapping]
    exact hstatic
  | _ => cases h

/-- What can be told of its parameters says what a producer is taken for. -/
theorem asSource_told {signature : Signature} (hmapping : (s.producer p).asMapping = none)
    (hsignature : (s.producer p).signature = some signature) : asSource (.producer p) s =
      if signature.accepts 4 then .ok (.contextual (.producer p)) s
      else if signature.accepts 0 then .ok (.lazy (.producer p)) s
      else .error .unsupportedArity s := by
  rw [asSource_producer, hmapping, hsignature, if_neg (by simp)]
  dsimp only
  split
  · rfl
  · split <;> rfl

/-- Any other object is refused. -/
theorem asSource_refused (hsource : ¬ object.isSource) (hentries : s.entries? object = none)
    (huntold : ∀ p, object = .producer p → (s.producer p).signature = none) :
    ∃ f, asSource object s = .error f s ∧ f.kind = .type := by
  cases object with
  | value v =>
    cases v with
    | dict entries => cases hentries
    | _ => exact ⟨_, rfl, rfl⟩
  | mapping m => cases hentries
  | producer p =>
    have hmapping : (s.producer p).asMapping = none := hentries
    refine ⟨.unsupportedArity, ?_, rfl⟩
    rw [asSource_producer, hmapping, huntold p rfl]
    rfl
  | _ => exact absurd rfl hsource

namespace Store

/-- What an object is taken for, with the store behind that. -/
inductive TakesFor (s : Store) : Source → Source → Store → Prop
  /-- A field source is taken as it is. -/
  | itself {object : Source} (h : object.isSource) : TakesFor s object object s
  /-- A mapping gives fixed fields, which are a copy of it. -/
  | fixed {object : Source} {f : Fields} (h : s.entries? object = some f) :
      TakesFor s object (.static ⟨s.mappings.length⟩) { s with mappings := s.mappings ++ [f] }
  /-- A function that takes four arguments works on the entry. -/
  | contextual {p : ProducerRef} {σ : Signature} (hm : (s.producer p).asMapping = none)
      (hσ : (s.producer p).signature = some σ) (h : σ.CanTake 4) :
      TakesFor s (.producer p) (.contextual (.producer p)) s
  /-- One that takes none, and not four, makes fields afresh. -/
  | lazy {p : ProducerRef} {σ : Signature} (hm : (s.producer p).asMapping = none)
      (hσ : (s.producer p).signature = some σ) (h : σ.CanTake 0) (hfour : ¬ σ.CanTake 4) :
      TakesFor s (.producer p) (.lazy (.producer p)) s

/-- Can an object be taken for a field source? -/
inductive Supports (s : Store) : Source → Prop
  | itself {object : Source} (h : object.isSource) : Supports s object
  | fixed {object : Source} {f : Fields} (h : s.entries? object = some f) : Supports s object
  | called {p : ProducerRef} {σ : Signature} (hσ : (s.producer p).signature = some σ) (h : σ.CanTake 4 ∨ σ.CanTake 0) :
      Supports s (.producer p)

end Store

theorem Store.TakesFor.asSource (h : s.TakesFor object source s₁) : asSource object s = .ok source s₁ := by
  cases h with
  | itself h => exact asSource_of_isSource h
  | fixed h => exact asSource_of_entries h
  | contextual hm hσ h => rw [asSource_told hm hσ, if_pos ((Signature.accepts_iff_canTake _ _).2 h)]
  | lazy hm hσ h hfour =>
    rw [asSource_told hm hσ, if_neg (mt (Signature.accepts_iff_canTake _ _).1 hfour),
      if_pos ((Signature.accepts_iff_canTake _ _).2 h)]

/-- An object is taken for a source if that is supported, and is refused otherwise. -/
theorem asSource_cases (object : Source) (s : Store) :
    (s.Supports object ∧ ∃ source s₁, s.TakesFor object source s₁) ∨
      (¬ s.Supports object ∧ ∃ f, asSource object s = .error f s ∧ f.kind = .type) := by
  by_cases hsource : object.isSource
  · exact .inl ⟨.itself hsource, _, _, .itself hsource⟩
  cases hentries : s.entries? object with
  | some f => exact .inl ⟨.fixed hentries, _, _, .fixed hentries⟩
  | none =>
    by_cases htold : ∃ p σ, object = .producer p ∧ (s.producer p).signature = some σ
    · obtain ⟨p, σ, rfl, hσ⟩ := htold
      by_cases hfour : σ.CanTake 4
      · exact .inl ⟨.called hσ (.inl hfour), _, _, .contextual hentries hσ hfour⟩
      by_cases hnone : σ.CanTake 0
      · exact .inl ⟨.called hσ (.inr hnone), _, _, .lazy hentries hσ hnone hfour⟩
      · refine .inr ⟨?_, .unsupportedArity, ?_, rfl⟩
        · intro h
          cases h with
          | itself h => exact hsource h
          | fixed h => cases hentries.symm.trans h
          | called hσ' h =>
            cases hσ.symm.trans hσ'
            exact h.elim hfour hnone
        · rw [asSource_told hentries hσ, if_neg (mt (Signature.accepts_iff_canTake _ _).1 hfour),
            if_neg (mt (Signature.accepts_iff_canTake _ _).1 hnone)]
    · have huntold : ∀ p, object = .producer p → (s.producer p).signature = none := fun p ho =>
        Option.eq_none_iff_forall_ne_some.2 fun σ hσ => htold ⟨p, σ, ho, hσ⟩
      refine .inr ⟨?_, asSource_refused hsource hentries huntold⟩
      intro h
      cases h with
      | itself h => exact hsource h
      | fixed h => cases hentries.symm.trans h
      | called hσ h => cases (huntold _ rfl).symm.trans hσ

theorem takesFor_of_asSource (h : asSource object s = .ok source s₁) : s.TakesFor object source s₁ := by
  rcases asSource_cases object s with ⟨-, source', s₁', htakes⟩ | ⟨-, f, hf, -⟩
  · cases htakes.asSource.symm.trans h
    exact htakes
  · cases hf.symm.trans h

/-! ## Calls of what was classified -/

/-- A source that has been made of an object calls a producer only that was told to take so many arguments. -/
theorem asSource_call {n : Nat} (hsource : ¬ object.isSource) (h : asSource object s = .ok source b)
    (hcall : source.call? = some (p, n)) :
    object = .producer p ∧ b = s ∧ ∃ signature, (s.producer p).signature = some signature ∧ signature.accepts n := by
  cases takesFor_of_asSource h with
  | itself hs => exact absurd hs hsource
  | fixed _ => cases hcall
  | contextual _ hσ hfour =>
    cases hcall
    exact ⟨rfl, rfl, _, hσ, (Signature.accepts_iff_canTake _ _).2 hfour⟩
  | lazy _ hσ hnone =>
    cases hcall
    exact ⟨rfl, rfl, _, hσ, (Signature.accepts_iff_canTake _ _).2 hnone⟩

/-- Only of a producer that is there can parameters be told. -/
theorem Store.lt_of_signature {signature : Signature} (h : (s.producer p).signature = some signature) :
    p.index < s.producers.length := by
  by_contra hout
  have hdefault : s.producer p = default := by
    unfold Store.producer
    rw [List.getElem?_eq_none (Nat.le_of_not_lt hout)]
    rfl
  rw [hdefault] at h
  cases h

/-- No run changes what a producer takes. -/
theorem Store.parameters_begun {caught : Tolerance} {depth : Nat} {turns : List Turn} {e : Call × Store}
    (hp : p.index < s.producers.length) (he : e ∈ s.begun caught depth turns) :
    (e.2.producer p).parameters = (s.producer p).parameters := by
  obtain ⟨earlier, later, hes⟩ := List.append_of_mem he
  have hcounts : s.Counts p (s.begun caught depth turns) (s.through caught depth turns) :=
    Store.through_counts depth turns hp
  rw [(hcounts.before earlier e later hes).producer]
  rfl

/-- The call of a source goes through: the program of its producer is run. -/
def Source.Runs (source : Source) (p : ProducerRef) (b : Store) : Prop :=
  ∀ nested scope, ∃ given,
    resolveSource nested source scope b = Produce.run nested p given .empty (b.producer p).program (b.counted p)

theorem Source.runs_of_takes {n : Nat} (hcall : source.call? = some (p, n)) (ht : b.takes p n) : source.Runs p b := by
  intro nested scope
  cases source with
  | lazy of =>
    cases of with
    | producer q =>
      cases hcall
      exact ⟨{}, Produce.invoke_of_takes ht {}⟩
    | _ => cases hcall
  | contextual of =>
    cases of with
    | producer q =>
      cases hcall
      exact ⟨scope, Produce.invoke_of_takes ht scope⟩
    | _ => cases hcall
  | _ => cases hcall

/-! ## The law -/

/-- What objects are taken for. -/
structure Store.Classifies (s : Store) : Prop where
  /-- A field source is taken as it is. -/
  asItIs : ∀ object, object.isSource → asSource object s = .ok object s
  /-- A mapping gives fixed fields with what it holds, also if it can be called. -/
  fixed : ∀ object f, s.entries? object = some f →
    asSource object s = .ok (.static ⟨s.mappings.length⟩) { s with mappings := s.mappings ++ [f] }
  /-- A function that takes four arguments works on the entry. -/
  contextual : ∀ p parameters, s.IsFunction p parameters →
    (asSource (.producer p) s = .ok (.contextual (.producer p)) s ↔ parameters.CanTake 4)
  /-- One that takes none, and not four, makes fields afresh. -/
  lazy : ∀ p parameters, s.IsFunction p parameters →
    (asSource (.producer p) s = .ok (.lazy (.producer p)) s ↔ parameters.CanTake 0 ∧ ¬ parameters.CanTake 4)
  /-- One that takes neither is refused. -/
  unsupported : ∀ p parameters, s.IsFunction p parameters →
    ((∃ f, asSource (.producer p) s = .error f s ∧ f.kind = .type) ↔
      ¬ parameters.CanTake 4 ∧ ¬ parameters.CanTake 0)
  /-- Any other object is refused. -/
  others : ∀ object, ¬ object.isSource → s.entries? object = none →
    (∀ p, object = .producer p → (s.producer p).signature = none) →
      ∃ f, asSource object s = .error f s ∧ f.kind = .type
  /-- A source that has been made of an object never calls its producer with a number of arguments that it does not
  take: whenever an entry begins in a run after that whose context has the source, the call goes through. -/
  called : ∀ object source s', ¬ object.isSource → (∀ p, object = .producer p → s.TellsRight p) →
    asSource object s = .ok source s' →
      ∀ caught depth turns, ∀ e ∈ s'.begun caught depth turns, ∀ c, e.2.sourceOf c = source →
        ∀ p n, source.call? = some (p, n) →
          ∃ parameters, (e.2.producer p).parameters = some parameters ∧ parameters.CanTake n ∧
            ∀ explicit b, Dispatch.explicitFields source e.1.fields e.2 = .ok explicit b → source.Runs p b

/-- An object is taken for what it is, and a function for what its parameters say; so the calls of a source that has
been made of an object go through. -/
theorem sources_classified (s : Store) : s.Classifies := by
  constructor
  case asItIs => exact fun object h => asSource_of_isSource h
  case fixed => exact fun object f h => asSource_of_entries h
  case contextual =>
    intro p parameters h
    rw [asSource_told h.1 h.2.1, ← Signature.accepts_iff_canTake]
    cases parameters.accepts 4 <;> cases parameters.accepts 0 <;> simp
  case lazy =>
    intro p parameters h
    rw [asSource_told h.1 h.2.1, ← Signature.accepts_iff_canTake, ← Signature.accepts_iff_canTake]
    cases parameters.accepts 4 <;> cases parameters.accepts 0 <;> simp
  case unsupported =>
    intro p parameters h
    have hkind : Failure.unsupportedArity.kind = .type := rfl
    rw [asSource_told h.1 h.2.1, ← Signature.accepts_iff_canTake, ← Signature.accepts_iff_canTake]
    cases parameters.accepts 4 <;> cases parameters.accepts 0 <;> simp [hkind]
  case others => exact fun object hsource hentries huntold => asSource_refused hsource hentries huntold
  case called =>
    intro object source s' hsource htells hmade caught depth turns e he c _ p n hcall
    obtain ⟨hobject, rfl, signature, hsignature, haccepts⟩ := asSource_call hsource hmade hcall
    have hparameters : (e.2.producer p).parameters = some signature :=
      (Store.parameters_begun (Store.lt_of_signature hsignature) he).trans (htells p hobject signature hsignature)
    refine ⟨signature, hparameters, (signature.accepts_iff_canTake n).1 haccepts, fun explicit b hx => ?_⟩
    -- The fields that go with an entry are copied at most.
    have hstill : b.producers = e.2.producers := by
      have h := (Session.IsStill.of_roomy fun _ hI =>
        Dispatch.explicitFields_roomy hI source e.1.fields).leaves e.2
      rwa [Session.leaves_ok hx] at h
    refine Source.runs_of_takes hcall ?_
    unfold Store.takes
    rw [Store.producer_congr hstill, hparameters]
    exact haccepts

/-- A store with a built-in function of one parameter, and with a context for its entries. -/
def builtInFunction : Store where
  contexts := [{}, {}]
  producers := [{
    signature := some [{ name := "object", passing := .positional }]
    program := [.output (.str "a") (.int 1)]
    typeName := "function"
    representation := "<function>"
    name := "size"
    isBuiltIn := true }]
  appenders := [.recording [] []]
  defaults := { appender := some ⟨0⟩ }

/-- A source that a caller has made by hand is taken as it is, and then an entry calls its producer without the
argument that it needs. -/
theorem handed_source_misfits :
    asSource (.lazy (.producer ⟨0⟩)) builtInFunction = .ok (.lazy (.producer ⟨0⟩)) builtInFunction ∧
    builtInFunction.IsFunction ⟨0⟩ [{ name := "object", passing := .positional }] ∧
    ¬ Signature.CanTake [{ name := "object", passing := .positional }] 0 ∧
    (dispatch 1 { context := some ⟨2⟩, level := .level .error, args := [.str "m"] }).outcome
      (builtInFunction.through .strict 1 [.derive ⟨1⟩ (.source (.lazy (.producer ⟨0⟩)))]) =
        .error (.call (.exactlyOne "size" 0)) := by
  refine ⟨rfl, ⟨rfl, rfl, rfl⟩, ?_, rfl⟩
  rw [Signature.canTake_zero]
  decide

end ContextLog
