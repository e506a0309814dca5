import Mathlib.Data.List.Forall2
import ContextLog.Proofs.Parallel
/-!
# Mappings in different places

Two stores may hold the same but keep their mappings in different places. A `Pairing` says which of the mappings
of two stores stand for each other at some time; those that are made later are paired in the order in which they
are made. `Store.Matched` says that two stores hold the same up to such a pairing. It is kept by everything that
is done to both stores alike, so two dispatches that begin in matched stores end in the same way, and leave the
same behind (`dispatch_matched`): where a mapping is kept is nothing that an entry can tell.
-/

namespace ContextLog

open Session

/-! ## Pairings -/

/-- Which of the first `n` mappings of one store stand for which of the first `n'` ones of another. -/
structure Pairing (n n' : Nat) where
  base : MappingRef → MappingRef → Prop
  below : ∀ {m m'}, base m m' → m.index < n ∧ m'.index < n'
  unique : ∀ {m m' q q'}, base m m' → base q q' → (m = q ↔ m' = q')

variable {n n' : Nat} {π : Pairing n n'} {s s' : Store} {m m' q q' : MappingRef} {h h' : Handle}

namespace Pairing

/-- Every mapping stands for itself. -/
def same (n n' : Nat) (h : n ≤ n') : Pairing n n' where
  base m m' := m = m' ∧ m.index < n
  below := by
    rintro m _ ⟨rfl, hm⟩
    exact ⟨hm, Nat.lt_of_lt_of_le hm h⟩
  unique := by
    rintro m _ q _ ⟨rfl, -⟩ ⟨rfl, -⟩
    exact Iff.rfl

/-- A pair of mappings of the pairing, or a pair of those that have been made since. -/
def Tied (π : Pairing n n') (m m' : MappingRef) : Prop :=
  π.base m m' ∨ ∃ k, m.index = n + k ∧ m'.index = n' + k

theorem Tied.unique (h : π.Tied m m') (h' : π.Tied q q') : m = q ↔ m' = q' := by
  rcases h with h | ⟨k, hm, hm'⟩
  · rcases h' with h' | ⟨j, hq, hq'⟩
    · exact π.unique h h'
    · have hbelow := π.below h
      constructor
      · rintro rfl
        omega
      · rintro rfl
        omega
  · cases m
    cases m'
    rcases h' with h' | ⟨j, hq, hq'⟩
    · have hbelow := π.below h'
      constructor
      · rintro rfl
        dsimp only at *
        omega
      · rintro rfl
        dsimp only at *
        omega
    · cases q
      cases q'
      dsimp only at *
      simp only [MappingRef.mk.injEq]
      omega

/-- A pair of mappings is in both stores, or in none. -/
theorem Tied.lt_iff (h : π.Tied m m') (k : Nat) : m.index < n + k ↔ m'.index < n' + k := by
  rcases h with h | ⟨j, hm, hm'⟩
  · have hbelow := π.below h
    omega
  · omega

end Pairing

/-! ## Matched stores -/

/-- What stands at a place in a list is related to what stands there in a related one. -/
theorem rel_getElem? {α β : Type} {R : α → β → Prop} {as : List α} {bs : List β} (h : List.Forall₂ R as bs) (i : Nat) :
    Option.Rel R as[i]? bs[i]? := by
  induction h generalizing i with
  | nil => exact .none
  | cons hab _ ih =>
    cases i with
    | zero => exact .some hab
    | succ i => exact ih i

theorem rel_map {α α' β β' : Type} {R : α → α' → Prop} {P : β → β' → Prop} {f : α → β} {f' : α' → β'}
    {x : Option α} {x' : Option α'} (h : Option.Rel R x x') (hf : ∀ a a', R a a' → P (f a) (f' a')) :
    Option.Rel P (x.map f) (x'.map f') := by
  cases h with
  | some ha => exact .some (hf _ _ ha)
  | none => exact .none

theorem rel_getD {α α' : Type} {R : α → α' → Prop} {x : Option α} {x' : Option α'} (h : Option.Rel R x x') {a : α}
    {a' : α'} (ha : R a a') : R (x.getD a) (x'.getD a') := by
  cases h with
  | some h => exact h
  | none => exact ha

theorem Source.Tied.mono {tied tied' : MappingRef → MappingRef → Prop} {source source' : Source}
    (h : source.Tied tied source') (hmono : ∀ m m', tied m m' → tied' m m') : source.Tied tied' source' := by
  induction h with
  | value v => exact .value v
  | mapping hm => exact .mapping (hmono _ _ hm)
  | producer p => exact .producer p
  | static hm => exact .static (hmono _ _ hm)
  | lazy _ ih => exact .lazy ih
  | contextual _ ih => exact .contextual ih

/-- Two contexts are the same but for where the mappings of their sources are. -/
structure Context.Tied (tied : MappingRef → MappingRef → Prop) (c c' : Context) : Prop where
  level : c'.level = c.level
  appender : c'.appender = c.appender
  values : c'.values = c.values
  source : c.source.Tied tied c'.source

theorem Context.Tied.mono {tied tied' : MappingRef → MappingRef → Prop} {c c' : Context} (h : c.Tied tied c')
    (hmono : ∀ m m', tied m m' → tied' m m') : c.Tied tied' c' :=
  ⟨h.level, h.appender, h.values, h.source.mono hmono⟩

namespace Store

/-- All that a store holds besides its mappings and contexts. -/
def rest (s : Store) : Store := { s with mappings := [], contexts := [] }

/-- A pair of mappings that are in their stores. -/
def Pairs (s : Store) (π : Pairing n n') (m m' : MappingRef) : Prop := π.Tied m m' ∧ m.index < s.mappings.length

/-- Two stores hold the same but for where their mappings are. -/
structure Matched (π : Pairing n n') (s s' : Store) : Prop where
  room : ∃ k, s.mappings.length = n + k ∧ s'.mappings.length = n' + k
  mapping : ∀ {m m'}, π.Tied m m' → s'.mapping m' = s.mapping m
  contexts : List.Forall₂ (Context.Tied (s.Pairs π)) s.contexts s'.contexts
  rest : s'.rest = s.rest

namespace Matched

/-- What can be read off a store without its mappings and contexts is the same in matched stores. -/
theorem read {γ : Type} {g : Store → γ} (h : s.Matched π s') (hg : ∀ s, g s.rest = g s) : g s' = g s := by
  rw [← hg s', h.rest, hg s]

/-- A change that touches neither the mappings nor the contexts keeps stores matched. -/
theorem change {g : Store → Store} (h : s.Matched π s') (hg : ∀ s, (g s).rest = (g s.rest).rest)
    (hm : ∀ s, (g s).mappings = s.mappings) (hc : ∀ s, (g s).contexts = s.contexts) : (g s).Matched π (g s') where
  room := by rw [hm, hm]; exact h.room
  mapping htied := by
    unfold Store.mapping
    rw [hm, hm]
    exact h.mapping htied
  contexts := by
    unfold Pairs
    rw [hc, hc, hm]
    exact h.contexts
  rest := by rw [hg, hg s, h.rest]

theorem context (h : s.Matched π s') (c : ContextRef) : (s.context c).Tied (s.Pairs π) (s'.context c) :=
  rel_getD (rel_getElem? h.contexts c.index) ⟨rfl, rfl, rfl, .value .none⟩

theorem allotted (h : s.Matched π s') (f : Fields) :
    Matched π { s with mappings := s.mappings ++ [f] } { s' with mappings := s'.mappings ++ [f] } where
  room := by
    obtain ⟨k, hk, hk'⟩ := h.room
    refine ⟨k + 1, ?_, ?_⟩
    · simp [hk, Nat.add_assoc]
    · simp [hk', Nat.add_assoc]
  mapping {m m'} htied := by
    obtain ⟨k, hk, hk'⟩ := h.room
    have hlt := htied.lt_iff k
    have hlt' := htied.lt_iff (k + 1)
    by_cases hm : m.index < n + k
    · rw [mapping_allotted_of_lt (hk' ▸ hlt.1 hm), mapping_allotted_of_lt (hk ▸ hm), h.mapping htied]
    · -- The mapping is the new one in both stores, or is in neither.
      unfold Store.mapping
      rw [List.getElem?_append_right (by omega), List.getElem?_append_right (by omega)]
      have hindex : m'.index - s'.mappings.length = m.index - s.mappings.length := by
        rcases htied with htied | ⟨j, hj, hj'⟩
        · have hbelow := π.below htied
          omega
        · omega
      rw [hindex]
  contexts := h.contexts.imp fun c c' hc => hc.mono fun m m' hm => by
    refine ⟨hm.1, Nat.lt_of_lt_of_le hm.2 ?_⟩
    simp
  rest := h.rest

theorem edited (h : s.Matched π s') (htied : π.Tied m m') (f : Fields) :
    Matched π { s with mappings := s.mappings.set m.index f }
      { s' with mappings := s'.mappings.set m'.index f } where
  room := by simpa using h.room
  mapping {q q'} hq := by
    obtain ⟨k, hk, hk'⟩ := h.room
    have hsame := htied.unique hq
    have hlt := htied.lt_iff k
    by_cases hm : m = q
    · obtain rfl := hsame.1 hm
      subst hm
      by_cases hin : m.index < n + k
      · rw [mapping_edited (by omega), mapping_edited (by omega)]
      · rw [List.set_eq_of_length_le (by omega), List.set_eq_of_length_le (by omega)]
        exact h.mapping hq
    · have hm' : m' ≠ q' := fun he => hm (hsame.2 he)
      rw [mapping_edited_of_ne hm', mapping_edited_of_ne hm, h.mapping hq]
  contexts := h.contexts.imp fun c c' hc => hc.mono fun m m' hm => ⟨hm.1, by simpa using hm.2⟩
  rest := h.rest

/-! ### What is shown of matched stores -/

theorem sourceText {source source' : Source} (h : s.Matched π s') (ht : source.Tied (s.Pairs π) source') :
    s'.sourceText source' = s.sourceText source := by
  induction ht with
  | value v => rfl
  | mapping hm => simp only [Store.sourceText, h.mapping hm.1]
  | producer p =>
    have hproducer := h.read (g := (·.producer p)) fun _ => rfl
    simp only [Store.sourceText, hproducer]
  | static hm => simp only [Store.sourceText, h.mapping hm.1]
  | lazy _ ih => simp only [Store.sourceText, ih]
  | contextual _ ih => simp only [Store.sourceText, ih]

theorem appenderText (h : s.Matched π s') (a : Option AppenderRef) : s'.appenderText a = s.appenderText a :=
  h.read (g := (·.appenderText a)) fun _ => by cases a <;> rfl

theorem contextText (h : s.Matched π s') (c : Option ContextRef) : s'.contextText c = s.contextText c := by
  cases c with
  | none => rfl
  | some c =>
    have hc := h.context c
    simp only [Store.contextText, hc.level, hc.appender, hc.values, h.appenderText, h.sourceText hc.source]

theorem changeText (h : s.Matched π s') (c : Change) : s'.changeText c = s.changeText c := by
  cases c with
  | context c => exact h.contextText c
  | appender a => exact h.appenderText a
  | _ => rfl

/-! ### What keeps stores matched -/

theorem configured (h : s.Matched π s') (changes : List Change) :
    Ends (Matched π) Eq (configure changes s) (configure changes s') := by
  refine configure_ends h (h.read (g := (·.defaults)) fun _ => rfl) (fun change _ => h.changeText change) (fun d => ?_)
    fun shown s s' h => ?_
  · exact h.change (g := fun s => { s with defaults := d }) (fun _ => rfl) (fun _ => rfl) fun _ => rfl
  · exact h.change (g := fun s => { s with journal := s.journal ++ [.configured shown] }) (fun _ => rfl)
      (fun _ => rfl) fun _ => rfl

theorem admission (h : s.Matched π s') (context : Option ContextRef) (level : Value) :
    s'.admission context level = s.admission context level := by
  have hdefaults := h.read (g := (·.defaults)) fun _ => rfl
  exact admission_eq_of_gates fun c => ⟨hdefaults, (h.context c).level, (h.context c).appender⟩

theorem parallel (π : Pairing n n') : Store.Parallel π.Tied (Matched π) where
  mapping h hm := h.mapping hm
  edited f h hm := h.edited hm f
  fresh h := by
    obtain ⟨k, hk, hk'⟩ := h.room
    exact .inr ⟨k, hk, hk'⟩
  allotted f h := h.allotted f
  producer p h := h.read (g := (·.producer p)) fun _ => rfl
  called p h := h.change (g := (·.counted p)) (fun _ => rfl) (fun _ => rfl) fun _ => rfl
  names h := h.read (g := (·.names)) fun _ => rfl
  value c key default h := by rw [Context.value, Context.value, (h.context c).values]
  source c h := (h.context c).source.mono fun _ _ hm => hm.1
  admission context level h := h.admission context level
  configured _ changes _ _ _ _ h := h.configured changes
  reset environment h := .ok rfl <| h.change (g := fun s => { s with
    defaults := (Defaults.ofEnvironment environment).1
    journal := s.journal ++ (Defaults.ofEnvironment environment).2 }) (fun _ => rfl) (fun _ => rfl) fun _ => rfl

theorem attended (π : Pairing n n') : Store.Attended (Matched π) where
  reported rs h :=
    h.change (g := fun s => { s with journal := s.journal ++ rs }) (fun _ => rfl) (fun _ => rfl) fun _ => rfl
  delivered d h :=
    h.change (g := fun s => { s with deliveries := s.deliveries ++ [d] }) (fun _ => rfl) (fun _ => rfl) fun _ => rfl
  worker h := h.read (g := (·.onWorker)) fun _ => rfl
  stdout h := h.read (g := fun s => s.stdout.map (·.flushFailure)) fun _ => rfl
  stderr h := h.read (g := fun s => s.stderr.map (·.flushFailure)) fun _ => rfl

theorem shared (π : Pairing n n') (a : AppenderRef) : Store.Shared a (Matched π) where
  appender h := h.read (g := (·.appender a)) fun _ => rfl
  received b h := h.change (g := fun s => { s with appenders := s.appenders.set a.index b }) (fun _ => rfl)
    (fun _ => rfl) fun _ => rfl
  printed {s s' channel channel'} line h ho ho' := by
    have hchannel := h.read (g := (·.stdout)) fun _ => rfl
    obtain rfl : channel' = channel := by simpa [ho, ho'] using hchannel
    exact h.change (g := fun s => { s with stdout := some { channel' with text := channel'.text ++ line } })
      (fun _ => rfl) (fun _ => rfl) fun _ => rfl

end Matched

end Store

/-! ## Dispatching -/

/-- What is caught does not depend on where the fields of an entry are. -/
def Tolerance.IsBlind (caught : Tolerance) : Prop := ∀ call h, caught { call with fields := h } = caught call

theorem Tolerance.strict_isBlind : Tolerance.strict.IsBlind := fun _ _ => rfl

theorem Tolerance.IsBlind.eq {caught : Tolerance} (hcaught : caught.IsBlind) {F : Handle → Handle → Prop}
    {call call' : Call} (hcall : call.Tied F call') : caught call' = caught call := by
  obtain ⟨hcontext, hlevel, -, hargs, htemplated⟩ := hcall
  have hsame : { call with fields := call'.fields } = call' := by
    cases call'
    cases hcontext
    cases hlevel
    cases hargs
    cases htemplated
    rfl
  rw [← hcaught call call'.fields, hsame]

/-- In matched stores two calls that are the same but for where their fields are come to the same. -/
theorem dispatchWithin_matched {caught : Tolerance} (hcaught : caught.IsBlind) (h : s.Matched π s')
    {call call' : Call} (hcall : call.Tied (s.GivesSame π.Tied s') call') (depth : Nat) :
    Ends (Store.Matched π) Eq (dispatchWithin caught depth call s) (dispatchWithin caught depth call' s') :=
  dispatchWithin_ends (Store.Matched.parallel π) (Store.Matched.attended π) (Store.Matched.shared π)
    (fun h => h.read (g := (·.defaults.debug)) fun _ => rfl) (fun hcall => hcaught.eq hcall) h hcall depth

/-! ## A mapping that nothing refers to -/

/-- The mapping that a source holds, if it holds one. -/
def Source.held? : Source → Option MappingRef
  | .mapping m | .static m => some m
  | .lazy of | .contextual of => of.held?
  | .value _ | .producer _ => none

theorem Source.tied_of_held {tied : MappingRef → MappingRef → Prop} {source : Source}
    (h : ∀ m, source.held? = some m → tied m m) : source.Tied tied source := by
  induction source with
  | value v => exact .value v
  | mapping m => exact .mapping (h m rfl)
  | producer p => exact .producer p
  | static m => exact .static (h m rfl)
  | lazy of ih => exact .lazy (ih h)
  | contextual of ih => exact .contextual (ih h)

namespace Store

/-- Every mapping that the source of a context holds is in the store. -/
def IsWhole (s : Store) : Prop := ∀ c ∈ s.contexts, ∀ m ∈ c.source.held?, m.index < s.mappings.length

instance (s : Store) : Decidable s.IsWhole :=
  inferInstanceAs (Decidable (∀ c ∈ s.contexts, ∀ m ∈ c.source.held?, m.index < s.mappings.length))

/-- The mappings of a store, and those that are made after another one was put into it. -/
abbrev pairing (s : Store) : Pairing s.mappings.length (s.mappings.length + 1) := .same _ _ (Nat.le_succ _)

/-- In a whole store the contexts are tied to themselves. -/
theorem IsWhole.tied (h : s.IsWhole) {n' : Nat} (hn : s.mappings.length ≤ n') :
    List.Forall₂ (Context.Tied (s.Pairs (.same _ _ hn))) s.contexts s.contexts := by
  refine List.forall₂_same.2 fun c hc => ⟨rfl, rfl, rfl, Source.tied_of_held fun m hm => ?_⟩
  have hlt : m.index < s.mappings.length := h c hc m hm
  exact ⟨.inl ⟨rfl, hlt⟩, hlt⟩

/-- To put a mapping into a store makes no difference to what it held. -/
theorem IsWhole.matched (h : s.IsWhole) (f : Fields) :
    Matched s.pairing s { s with mappings := s.mappings ++ [f] } where
  room := ⟨0, rfl, by simp⟩
  mapping {m m'} htied := by
    rcases htied with ⟨rfl, hm⟩ | ⟨k, hm, hm'⟩
    · exact mapping_allotted_of_lt hm f
    · have hlength : (s.mappings ++ [f]).length ≤ m'.index := by simp; omega
      exact (mapping_of_length_le hlength).trans (mapping_of_length_le (by omega)).symm
  contexts := h.tied _
  rest := rfl

end Store

end ContextLog
