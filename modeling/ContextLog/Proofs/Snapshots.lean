import ContextLog.Proofs.Hosting
/-!
# Passing a mapping, or a copy of it

A host that passes its mappings themselves and one that passes copies of them learn the same from every request, and
leave the same behind (`caller_mappings_isolated`): the two runs are side by side, in stores that are matched, with
desks on which the same mappings stand for each other. A copy is one mapping more on its side, so the pairing is
made anew whenever something is passed (`Store.Matched.copied`).
-/

namespace ContextLog

open Session

variable {n n' : Nat} {π : Pairing n n'} {s s' : Store} {m m' : MappingRef} {tied : MappingRef → MappingRef → Prop}
  {desk desk' : Desk} {caught : Tolerance} {depth : Nat}

/-! ## A copy on one side -/

namespace Store.Matched

/-- The mappings that stand for each other by now, where the second store gets some more. -/
def settled (h : s.Matched π s') (more : Nat) : Pairing s.mappings.length (s'.mappings.length + more) where
  base := s.Pairs π
  below := by
    rintro m m' ⟨htied, hlt⟩
    obtain ⟨k, hk, hk'⟩ := h.room
    have hlt' := (htied.lt_iff k).1 (hk ▸ hlt)
    omega
  unique hm hq := hm.1.unique hq.1

/-- One mapping more in the second store makes no difference. -/
theorem copied (h : s.Matched π s') (f : Fields) :
    s.Matched (h.settled 1) { s' with mappings := s'.mappings ++ [f] } where
  room := ⟨0, rfl, by simp⟩
  mapping {m m'} htied := by
    rcases htied with hpair | ⟨k, hm, hm'⟩
    · have hbelow := (h.settled 0).below hpair
      exact (mapping_allotted_of_lt hbelow.2 f).trans (h.mapping hpair.1)
    · have hlength : (s'.mappings ++ [f]).length ≤ m'.index := by simp; omega
      exact (mapping_of_length_le hlength).trans (mapping_of_length_le (by omega)).symm
  contexts := h.contexts.imp fun c c' hc => hc.mono fun m m' hm => ⟨.inl hm, hm.2⟩
  rest := h.rest

/-- To put contexts into both stores keeps them matched. -/
theorem newContext_ends (h : s.Matched π s') {c c' : Context} (hc : c.Tied (s.Pairs π) c') :
    Ends (Matched π) Eq (newContext c s) (newContext c' s') := by
  refine .ok (congrArg ContextRef.mk h.contexts.length_eq) ⟨h.room, h.mapping, ?_, h.rest⟩
  exact List.rel_append h.contexts (.cons hc .nil)

end Store.Matched

/-! ## Sources made of what is passed -/

/-- Two objects may become sources that are the same: they are tied, or mappings that hold the same. -/
def Source.Stands (π : Pairing n n') (s s' : Store) (object object' : Source) : Prop :=
  object.Tied π.Tied object' ∨ ∃ m m', object = .mapping m ∧ object' = .mapping m' ∧ s'.mapping m' = s.mapping m

namespace Store.Matched

theorem fixedFields (h : s.Matched π s') {object object' : Source} (ho : object.Stands π s s' object') :
    s'.fixedFields object' = s.fixedFields object := by
  rcases ho with ho | ⟨m, m', rfl, rfl, hm⟩
  · have htype := (parallel π).sourceType h ho
    cases ho with
    | mapping hm => exact congrArg Except.ok (h.mapping hm)
    | value v => rfl
    | producer p => simp only [Store.fixedFields, (parallel π).producer p h]
    | _ => exact congrArg (fun t => (.error (.mapping (.notIterable t)) : Except Failure Fields)) htype
  · exact congrArg Except.ok hm

theorem makeStatic_ends (h : s.Matched π s') {object object' : Source} (ho : object.Stands π s s' object') :
    Ends (Matched π) (Source.Tied π.Tied) (makeStatic object s) (makeStatic object' s') := by
  unfold makeStatic
  rw [run_bind_ok run_get, run_bind_ok run_get, h.fixedFields ho]
  refine Abreast.lift_bind _ (fun f => ?_) h
  exact .bind (newMapping_abreast (parallel π) f) fun _ _ hm => .pure (.static hm)

theorem asSource_ends (h : s.Matched π s') {object object' : Source} (ho : object.Stands π s s' object') :
    Ends (Matched π) (Source.Tied π.Tied) (asSource object s) (asSource object' s') := by
  have hstatic := h.makeStatic_ends ho
  rcases ho with ho | ⟨m, m', rfl, rfl, -⟩
  · unfold asSource
    cases ho with
    | mapping hm => exact hstatic
    | value v =>
      cases v with
      | dict entries => exact hstatic
      | _ => exact .error _ h
    | producer p =>
      have hproducer := (parallel π).producer p h
      dsimp only
      rw [run_bind_ok run_get, run_bind_ok run_get, hproducer]
      by_cases hmapping : (s.producer p).asMapping.isSome
      · rw [if_pos hmapping]
        exact hstatic
      · rw [if_neg hmapping]
        cases (s.producer p).signature with
        | none => exact .error _ h
        | some signature =>
          dsimp only
          split
          · exact .ok (.contextual (.producer p)) h
          · split
            · exact .ok (.lazy (.producer p)) h
            · exact .error _ h
    | static hm => exact .ok (.static hm) h
    | lazy hof => exact .ok (.lazy hof) h
    | contextual hof => exact .ok (.contextual hof) h
  · exact hstatic

end Store.Matched

/-! ## Desks side by side -/

/-- Two sources that are tied are tied by more, if that holds of the mapping that they hold. -/
theorem Source.Tied.and_held {source source' : Source} {P : MappingRef → Prop} (h : source.Tied tied source')
    (hP : ∀ m ∈ source.held?, P m) : source.Tied (fun m m' => tied m m' ∧ P m) source' := by
  induction h with
  | value v => exact .value v
  | mapping hm => exact .mapping ⟨hm, hP _ rfl⟩
  | producer p => exact .producer p
  | static hm => exact .static ⟨hm, hP _ rfl⟩
  | lazy _ ih => exact .lazy (ih hP)
  | contextual _ ih => exact .contextual (ih hP)

/-- On two desks the same things stand under the same numbers, but for where their mappings are. -/
structure Desk.Tied (tied : MappingRef → MappingRef → Prop) (desk desk' : Desk) : Prop where
  mappings : List.Forall₂ tied desk.mappings desk'.mappings
  sources : List.Forall₂ (Source.Tied tied) desk.sources desk'.sources
  builders : List.Forall₂ (fun e e' => tied e.fields e'.fields) desk.builders desk'.builders

namespace Desk.Tied

variable {R : Store → Store → Prop}

theorem mono {tied' : MappingRef → MappingRef → Prop} (h : desk.Tied tied desk')
    (hmono : ∀ m m', tied m m' → tied' m m') : desk.Tied tied' desk' where
  mappings := h.mappings.imp hmono
  sources := h.sources.imp fun _ _ hs => hs.mono hmono
  builders := h.builders.imp fun _ _ he => hmono _ _ he

theorem withMapping (h : desk.Tied tied desk') (hm : tied m m') :
    (desk.withMapping m).Tied tied (desk'.withMapping m') :=
  ⟨List.rel_append h.mappings (.cons hm .nil), h.sources, h.builders⟩

theorem withSource (h : desk.Tied tied desk') {source source' : Source} (hs : source.Tied tied source') :
    (desk.withSource source).Tied tied (desk'.withSource source') :=
  ⟨h.mappings, List.rel_append h.sources (.cons hs .nil), h.builders⟩

theorem withBuilder (h : desk.Tied tied desk') {e e' : Entry} (he : tied e.fields e'.fields) :
    (desk.withBuilder e).Tied tied (desk'.withBuilder e') :=
  ⟨h.mappings, h.sources, List.rel_append h.builders (.cons he .nil)⟩

theorem handle (h : desk.Tied tied desk') (given : Given) : (desk.handle given).Tied tied (desk'.handle given) := by
  cases given with
  | nothing => exact .nothing
  | other v => exact .other v
  | mapping i => exact rel_getD (rel_map (rel_getElem? h.mappings i) fun _ _ hm => .live hm) .nothing

theorem object (h : desk.Tied tied desk') (object : Object) :
    (desk.object object).Tied tied (desk'.object object) := by
  cases object with
  | value v => exact .value v
  | producer p => exact .producer p
  | mapping i => exact rel_getD (rel_map (rel_getElem? h.mappings i) fun _ _ hm => .mapping hm) (.value .none)
  | made i => exact rel_getD (rel_getElem? h.sources i) (.value .none)

theorem onMapping (h : desk.Tied tied desk') {f f' : MappingRef → Session Unit}
    (hf : ∀ m m', tied m m' → Abreast R Eq (f m) (f' m')) (i : Nat) :
    Abreast R Eq (desk.onMapping i f) (desk'.onMapping i f') :=
  rel_getD (rel_map (rel_getElem? h.mappings i) hf) (.pure rfl)

theorem onBuilder (h : desk.Tied tied desk') {f f' : Entry → Session Unit}
    (hf : ∀ e e', tied e.fields e'.fields → Abreast R Eq (f e) (f' e')) (i : Nat) :
    Abreast R Eq (desk.onBuilder i f) (desk'.onBuilder i f') :=
  rel_getD (rel_map (rel_getElem? h.builders i) hf) (.pure rfl)

theorem paired (h : desk.Tied (s.Pairs π) desk') : desk.Tied π.Tied desk' := h.mono fun _ _ hm => hm.1

/-- What stands on desks that fit is in the stores. -/
theorem pairs (h : desk.Tied π.Tied desk') (hfits : desk.Fits s) : desk.Tied (s.Pairs π) desk' where
  mappings := (List.forall₂_and_left _ _).2 ⟨hfits.mappings, h.mappings⟩ |>.imp fun _ _ hm => ⟨hm.2, hm.1⟩
  sources := (List.forall₂_and_left _ _).2 ⟨hfits.sources, h.sources⟩ |>.imp fun _ _ hs => hs.2.and_held hs.1
  builders := (List.forall₂_and_left _ _).2 ⟨hfits.builders, h.builders⟩ |>.imp fun _ _ he => ⟨he.2, he.1⟩

end Desk.Tied

/-! ## Passing on both sides -/

namespace Transfer

theorem live_handle (h : Handle) : live.handle h = pure h := by cases h <;> rfl

theorem live_source (object : Source) : live.source object = pure object := by cases object <;> rfl

/-- To pass a copy keeps the stores matched, and the copy holds the same. -/
theorem copied_mapping (h : s.Matched π s') (hm : s.Pairs π m m') :
    ∃ m₁ s₁, copied.mapping m' s' = .ok m₁ s₁ ∧ s.Matched (h.settled 1) s₁ ∧ s₁.mapping m₁ = s.mapping m := by
  refine ⟨_, _, rfl, h.copied _, ?_⟩
  rw [Store.mapping_allotted]
  exact h.mapping hm.1

theorem copied_handle (h : s.Matched π s') {handle handle' : Handle} (hh : handle.Tied (s.Pairs π) handle') :
    ∃ (k k' : Nat) (ρ : Pairing k k') (given : Handle) (s₁ : Store), copied.handle handle' s' = .ok given s₁ ∧
      s.Matched ρ s₁ ∧ s₁.supplied given = s.supplied handle ∧ ∀ m m', s.Pairs π m m' → s.Pairs ρ m m' := by
  cases hh with
  | live hm =>
    obtain ⟨m₁, s₁, hrun, hmatched, hsame⟩ := copied_mapping h hm
    refine ⟨_, _, _, .live m₁, s₁, run_bind_ok hrun, hmatched, congrArg Supplied.fields hsame, ?_⟩
    intro m m' hm
    exact ⟨.inl hm, hm.2⟩
  | nothing => exact ⟨n, n', π, .nothing, s', rfl, h, rfl, fun _ _ hm => hm⟩
  | vacant => exact ⟨n, n', π, .vacant, s', rfl, h, rfl, fun _ _ hm => hm⟩
  | other v => exact ⟨n, n', π, .other v, s', rfl, h, rfl, fun _ _ hm => hm⟩

theorem copied_source (h : s.Matched π s') {object object' : Source} (ho : object.Tied (s.Pairs π) object') :
    ∃ (k k' : Nat) (ρ : Pairing k k') (given : Source) (s₁ : Store), copied.source object' s' = .ok given s₁ ∧
      s.Matched ρ s₁ ∧ object.Stands ρ s s₁ given ∧ ∀ m m', s.Pairs π m m' → s.Pairs ρ m m' := by
  have hsame : ∀ given, copied.source object' s' = .ok given s' → object.Tied (s.Pairs π) given →
      ∃ (k k' : Nat) (ρ : Pairing k k') (given : Source) (s₁ : Store), copied.source object' s' = .ok given s₁ ∧
        s.Matched ρ s₁ ∧ object.Stands ρ s s₁ given ∧ ∀ m m', s.Pairs π m m' → s.Pairs ρ m m' := by
    intro given hrun hgiven
    exact ⟨n, n', π, given, s', hrun, h, .inl (hgiven.mono fun _ _ hm => hm.1), fun _ _ hm => hm⟩
  cases ho with
  | mapping hm =>
    obtain ⟨m₁, s₁, hrun, hmatched, hsame⟩ := copied_mapping h hm
    refine ⟨_, _, _, .mapping m₁, s₁, run_bind_ok hrun, hmatched, .inr ⟨_, _, rfl, rfl, hsame⟩, ?_⟩
    intro m m' hm
    exact ⟨.inl hm, hm.2⟩
  | value v => exact hsame _ rfl (.value v)
  | producer p => exact hsame _ rfl (.producer p)
  | static hm => exact hsame _ rfl (.static hm)
  | lazy hof => exact hsame _ rfl (.lazy hof)
  | contextual hof => exact hsame _ rfl (.contextual hof)

end Transfer

/-! ## Requests on both sides -/

namespace Entry

variable {e e' : Entry}

theorem withField_abreast (he : π.Tied e.fields e'.fields) (k v : Value) :
    Abreast (Store.Matched π) Eq (e.withField k v) (e'.withField k v) :=
  .bind (checkKey_abreast k) fun _ _ _ => .get fun s s' hs => by
    have hmapping : s'.mapping e'.fields = s.mapping e.fields := hs.mapping he
    show Ends _ _ (setMapping e.fields ((s.mapping e.fields).set k v) s)
      (setMapping e'.fields ((s'.mapping e'.fields).set k v) s')
    rw [hmapping]
    exact setMapping_abreast (Store.Matched.parallel π).toMirrored he _ hs

theorem withError_abreast (he : π.Tied e.fields e'.fields) (err : Value) :
    Abreast (Store.Matched π) Eq (e.withError err) (e'.withError err) :=
  .lift_bind _ fun text => withField_abreast he errorKey (.str text)

theorem withFields_ends (h : s.Matched π s') (he : π.Tied e.fields e'.fields) {given given' : Handle}
    (hsame : s'.supplied given' = s.supplied given) :
    Ends (Store.Matched π) Eq (e.withFields given s) (e'.withFields given' s') := by
  have hmapping : s'.mapping e'.fields = s.mapping e.fields := h.mapping he
  unfold withFields
  rw [run_bind_ok run_get, run_bind_ok run_get, hsame, hmapping]
  refine Abreast.bind (setMapping_abreast (Store.Matched.parallel π).toMirrored he _) (fun _ _ _ => ?_) h
  exact .lift _

end Entry

theorem clearRecords_abreast (π : Pairing n n') (r : AppenderRef) :
    Abreast (Store.Matched π) Eq (clearRecords r) (clearRecords r) := by
  have hA := Store.Matched.shared π r
  refine .get fun s s' hs => ?_
  rw [hA.appender hs]
  split
  · exact setAppender_abreast hA _ hs
  · exact .error _ hs

theorem Adjustment.perform_ends (h : s.Matched π s') (adjustment : Adjustment) :
    Ends (Store.Matched π) Eq (adjustment.perform s) (adjustment.perform s') := by
  cases adjustment with
  | configure changes => exact h.configured changes
  | reset environment => exact (Store.Matched.parallel π).reset environment h

/-- Two answers are the same, and so are the desks that come with them. -/
def SameAnswer (ρ : Pairing n n') (a a' : Answer × Desk) : Prop := a'.1 = a.1 ∧ a.2.Tied ρ.Tied a'.2

/-- Two sessions give the same answer, and what stood for each other on the desks still does. -/
def Agree (desk desk' : Desk) (s s' : Store) (x x' : Session (Answer × Desk)) : Prop :=
  ∃ (k k' : Nat) (ρ : Pairing k k'), desk.Tied ρ.Tied desk' ∧ Ends (Store.Matched ρ) (SameAnswer ρ) (x s) (x' s')

namespace Agree

/-- Nothing is passed, so the pairing stays. -/
theorem of_ends {x x' : Session (Answer × Desk)} (ht : desk.Tied (s.Pairs π) desk')
    (h : Ends (Store.Matched π) (SameAnswer π) (x s) (x' s')) : Agree desk desk' s s' x x' :=
  ⟨n, n', π, ht.paired, h⟩

/-- What stands where fields are expected is passed on, itself or as a copy. -/
theorem pass_handle (h : s.Matched π s') (ht : desk.Tied (s.Pairs π) desk') {handle handle' : Handle}
    (hh : handle.Tied (s.Pairs π) handle') {f f' : Handle → Session (Answer × Desk)}
    (hf : ∀ (k k' : Nat) (ρ : Pairing k k') given s₁, s.Matched ρ s₁ → (∀ m m', s.Pairs π m m' → s.Pairs ρ m m') →
      s₁.supplied given = s.supplied handle → Ends (Store.Matched ρ) (SameAnswer ρ) (f handle s) (f' given s₁)) :
    Agree desk desk' s s' (Transfer.live.handle handle >>= f) (Transfer.copied.handle handle' >>= f') := by
  obtain ⟨k, k', ρ, given, s₁, hrun, h₁, hsame, hmore⟩ := Transfer.copied_handle h hh
  refine ⟨k, k', ρ, (ht.mono hmore).paired, ?_⟩
  rw [Transfer.live_handle, run_bind_ok (run_pure _), run_bind_ok hrun]
  exact hf k k' ρ given s₁ h₁ hmore hsame

/-- What stands where a source is expected is passed on, itself or as a copy. -/
theorem pass_source (h : s.Matched π s') (ht : desk.Tied (s.Pairs π) desk') {object object' : Source}
    (ho : object.Tied (s.Pairs π) object') {f f' : Source → Session (Answer × Desk)}
    (hf : ∀ (k k' : Nat) (ρ : Pairing k k') given s₁, s.Matched ρ s₁ → (∀ m m', s.Pairs π m m' → s.Pairs ρ m m') →
      object.Stands ρ s s₁ given → Ends (Store.Matched ρ) (SameAnswer ρ) (f object s) (f' given s₁)) :
    Agree desk desk' s s' (Transfer.live.source object >>= f) (Transfer.copied.source object' >>= f') := by
  obtain ⟨k, k', ρ, given, s₁, hrun, h₁, hstands, hmore⟩ := Transfer.copied_source h ho
  refine ⟨k, k', ρ, (ht.mono hmore).paired, ?_⟩
  rw [Transfer.live_source, run_bind_ok (run_pure _), run_bind_ok hrun]
  exact hf k k' ρ given s₁ h₁ hmore hstands

end Agree

/-- What is done has nothing to tell. -/
theorem done_answers (ht : desk.Tied π.Tied desk') {x x' : Session Unit}
    (hx : Ends (Store.Matched π) Eq (x s) (x' s')) :
    Ends (Store.Matched π) (SameAnswer π) ((do x; return (.done, desk) : Session (Answer × Desk)) s)
      ((do x'; return (.done, desk') : Session (Answer × Desk)) s') :=
  hx.bind fun _ _ _ _ _ _ hs => .ok ⟨rfl, ht⟩ hs

/-! ### Contexts -/

/-- A context is put into both stores. -/
theorem newContext_answers (h : s.Matched π s') (ht : desk.Tied π.Tied desk') {c c' : Context}
    (hc : c.Tied (s.Pairs π) c') :
    Ends (Store.Matched π) (SameAnswer π)
      ((do return (.context (← newContext c), desk) : Session (Answer × Desk)) s)
      ((do return (.context (← newContext c'), desk') : Session (Answer × Desk)) s') := by
  refine (h.newContext_ends hc).bind fun r r' _ _ _ hr hs => ?_
  subst hr
  exact .ok ⟨rfl, ht⟩ hs

/-- Two derivations are the same, but for objects that become the same sources. -/
inductive Derivation.Stands (π : Pairing n n') (s s' : Store) : Derivation → Derivation → Prop
  | level (v : Value) : Stands π s s' (.level v) (.level v)
  | appender (a : Option AppenderRef) : Stands π s s' (.appender a) (.appender a)
  | source {object object' : Source} : object.Stands π s s' object' → Stands π s s' (.source object) (.source object')
  | value (key v : Value) : Stands π s s' (.value key v) (.value key v)

theorem Derivation.Stands.apply_ends {derivation derivation' : Derivation} (h : s.Matched π s')
    (hd : derivation.Stands π s s' derivation') {c c' : Context} (hc : c.Tied π.Tied c') :
    Ends (Store.Matched π) (Context.Tied π.Tied) (derivation.apply c s) (derivation'.apply c' s') := by
  cases hd with
  | level v => exact Abreast.lift_bind _ (fun l => .pure ⟨rfl, hc.appender, hc.values, hc.source⟩) h
  | appender a => exact .ok ⟨hc.level, rfl, hc.values, hc.source⟩ h
  | source ho =>
    refine (h.asSource_ends ho).bind fun source source' _ _ _ hsource hs => ?_
    exact .ok ⟨hc.level, hc.appender, hc.values, hsource⟩ hs
  | value key v =>
    show Ends _ _ (lift (c.withValue key v) s) (lift (c'.withValue key v) s')
    unfold Context.withValue
    cases key.mutableType? with
    | some type => exact .error _ h
    | none => exact .ok ⟨hc.level, hc.appender, congrArg (·.set key v) hc.values, hc.source⟩ h

/-- Contexts are derived in the same way from those of one number. -/
theorem derive_answers (h : s.Matched π s') (hfits : desk.Fits s) (ht : desk.Tied π.Tied desk') (c : ContextRef)
    {derivation derivation' : Derivation} (hd : derivation.Stands π s s' derivation')
    (htakes : ∀ object, derivation = .source object → desk.Takes s object) :
    Ends (Store.Matched π) (SameAnswer π)
      ((do return (.context (← newContext (← derivation.apply ((← get).context c))), desk) :
        Session (Answer × Desk)) s)
      ((do return (.context (← newContext (← derivation'.apply ((← get).context c))), desk') :
        Session (Answer × Desk)) s') := by
  have hc := (h.context c).mono fun _ _ hm => hm.1
  rw [run_bind_ok run_get, run_bind_ok run_get]
  refine (hd.apply_ends h hc).bind fun c₁ c₁' s₁ s₁' hrun hc₁ h₁ => ?_
  obtain ⟨-, htakes₁⟩ := (Derivation.apply_yields hfits (hfits.takes_context c) htakes).ok hrun
  exact newContext_answers h₁ ht ⟨hc₁.level, hc₁.appender, hc₁.values, hc₁.source.and_held htakes₁.held⟩

namespace Request

theorem derive_agrees (h : s.Matched π s') (hfits : desk.Fits s) (ht : desk.Tied (s.Pairs π) desk') (c : ContextRef)
    (d : Deriving) : Agree desk desk' s s' ((derive c d).perform .live caught depth desk)
      ((derive c d).perform .copied caught depth desk') := by
  have htied : desk.Tied π.Tied desk' := ht.paired
  cases d with
  | level v => exact .of_ends ht (derive_answers h hfits htied c (.level v) nofun)
  | appender a => exact .of_ends ht (derive_answers h hfits htied c (.appender a) nofun)
  | value k v => exact .of_ends ht (derive_answers h hfits htied c (.value k v) nofun)
  | fields object =>
    have hassoc : ∀ w desk, (derive c (.fields object)).perform w caught depth desk =
        w.source (desk.object object) >>= fun given => do
          return (.context (← newContext (← (Derivation.source given).apply ((← get).context c))), desk) :=
      fun w desk => bind_assoc _ _ _
    rw [hassoc, hassoc]
    refine .pass_source h ht (ht.object object) fun k k' ρ given s₁ h₁ hmore hstands => ?_
    refine derive_answers h₁ hfits (ht.mono hmore).paired c (.source hstands) ?_
    rintro _ ⟨⟩
    exact hfits.takes_object object

theorem collect_agrees (h : s.Matched π s') (ht : desk.Tied (s.Pairs π) desk') (i : Nat) (collecting : Collecting) :
    Agree desk desk' s s' ((collect i collecting).perform .live caught depth desk)
      ((collect i collecting).perform .copied caught depth desk') := by
  have htied : desk.Tied π.Tied desk' := ht.paired
  have hbuilder := rel_getElem? ht.builders i
  unfold perform Desk.onBuilder
  dsimp only
  generalize desk.builders[i]? = x at hbuilder ⊢
  generalize desk'.builders[i]? = x' at hbuilder ⊢
  cases hbuilder with
  | none => exact .of_ends ht (done_answers htied (Abreast.pure rfl h))
  | @some e e' he =>
    cases collecting with
    | field k v => exact .of_ends ht (done_answers htied (Entry.withField_abreast he.1 k v h))
    | error err => exact .of_ends ht (done_answers htied (Entry.withError_abreast he.1 err h))
    | fields given =>
      have hassoc : ∀ (w : Transfer) (desk : Desk) (e : Entry),
          (do desk.collect w e (.fields given); return (.done, desk) : Session (Answer × Desk)) =
            w.handle (desk.handle given) >>= fun given => do e.withFields given; return (.done, desk) :=
        fun w desk e => bind_assoc _ _ _
      show Agree desk desk' s s' (do desk.collect .live e (.fields given); return (.done, desk))
        (do desk'.collect .copied e' (.fields given); return (.done, desk'))
      rw [hassoc, hassoc]
      refine .pass_handle h ht (ht.handle given) fun k k' ρ given' s₁ h₁ hmore hsame => ?_
      have ht₁ : desk.Tied ρ.Tied desk' := (ht.mono hmore).paired
      exact done_answers ht₁ (Entry.withFields_ends h₁ (hmore _ _ he).1 hsame)

theorem context_agrees (h : s.Matched π s') (ht : desk.Tied (s.Pairs π) desk') (level : Value)
    (appender : Option AppenderRef) (source : Object) (values : Given) :
    Agree desk desk' s s' ((context level appender source values).perform .live caught depth desk)
      ((context level appender source values).perform .copied caught depth desk') := by
  refine .pass_handle h ht (ht.handle values) fun k k' ρ given s₁ h₁ hmore hsame => ?_
  have ht₁ : desk.Tied (s.Pairs ρ) desk' := ht.mono hmore
  have hcopy : copy given s₁ = (lift (s.supplied (desk.handle values)).copy : Session Fields) s₁ := by
    rw [← hsame]
    rfl
  refine Ends.lift_bind (by rfl) hcopy h₁ fun f => ?_
  exact newContext_answers h₁ ht₁.paired ⟨rfl, rfl, rfl, ht₁.object source⟩

theorem build_agrees (h : s.Matched π s') (ht : desk.Tied (s.Pairs π) desk') (given : Given) :
    Agree desk desk' s s' ((build given).perform .live caught depth desk)
      ((build given).perform .copied caught depth desk') := by
  refine .pass_handle h ht (ht.handle given) fun k k' ρ given' s₁ h₁ hmore hsame => ?_
  have ht₁ : desk.Tied ρ.Tied desk' := (ht.mono hmore).paired
  have hnew : Ends (Store.Matched ρ) (fun e e' => ρ.Tied e.fields e'.fields) (Entry.new (desk.handle given) s)
      (Entry.new given' s₁) :=
    (newCopy_ends_of_same (Store.Matched.parallel ρ) h₁ (congrArg Supplied.copyIfPresent hsame)).bind
      fun _ _ _ _ _ hm hs => .ok hm hs
  exact hnew.bind fun _ _ _ _ _ he hs => .ok ⟨rfl, ht₁.withBuilder he⟩ hs

/-- What builders have collected is the same, and the mappings in which it is got stand for each other. -/
theorem collected_abreast (ht : desk.Tied π.Tied desk') (i : Nat) :
    Abreast (Store.Matched π) (SameAnswer π) (desk.collected i) (desk'.collected i) := by
  refine rel_getD (rel_map (rel_getElem? ht.builders i) fun e e' he s s' hs => ?_) (.pure ⟨rfl, ht⟩)
  have hcollected : e'.collected s' = (lift (.ok (s.mapping e.fields)) : Session Fields) s' := by
    rw [← hs.mapping he]
    rfl
  refine Ends.lift_bind (by rfl) hcollected hs fun f => ?_
  exact (newMapping_abreast (Store.Matched.parallel π) f hs).bind fun _ _ _ _ _ hm hs =>
    .ok ⟨rfl, ht.withMapping hm⟩ hs

/-- The same records are shown, or there are none on both sides. -/
theorem records_abreast (ht : desk.Tied π.Tied desk') (r : AppenderRef) :
    Abreast (Store.Matched π) (SameAnswer π) ((records r).perform .live caught depth desk)
      ((records r).perform .copied caught depth desk') := by
  intro s s' hs
  have happ := (Store.Matched.shared π r).appender hs
  unfold perform
  dsimp only
  rw [run_bind_ok run_get, run_bind_ok run_get, happ]
  split
  · exact .ok ⟨rfl, ht⟩ hs
  · exact .error _ hs

theorem perform_agrees (hcaught : caught.IsBlind) (h : s.Matched π s') (hfits : desk.Fits s)
    (ht : desk.Tied (s.Pairs π) desk') (request : Request) :
    Agree desk desk' s s' (request.perform .live caught depth desk) (request.perform .copied caught depth desk') := by
  have htied : desk.Tied π.Tied desk' := ht.paired
  have hI := Store.Matched.parallel π
  have hdone : ∀ {x x' : Session Unit}, Ends (Store.Matched π) Eq (x s) (x' s') →
      Agree desk desk' s s' (do x; return (.done, desk)) (do x'; return (.done, desk')) := fun hx =>
    .of_ends ht (done_answers htied hx)
  have hdispatch : ∀ call call' : Call, call.Tied (Handle.Tied π.Tied) call' →
      Abreast (Store.Matched π) Eq (dispatchWithin caught depth call) (dispatchWithin caught depth call') := by
    intro call call' hcall s s' h
    exact dispatchWithin_matched hcaught h
      ⟨hcall.context, hcall.level, .inl hcall.fields, hcall.args, hcall.templated⟩ depth
  cases request with
  | make f =>
    refine .of_ends ht (Ends.bind (newMapping_abreast hI f h) ?_)
    exact fun _ _ _ _ _ hm hs => .ok ⟨rfl, htied.withMapping hm⟩ hs
  | change i edit =>
    refine hdone (htied.onMapping (fun m m' hm => .get fun s s' hs => ?_) i h)
    rw [hs.mapping hm]
    exact setMapping_abreast hI.toMirrored hm _ hs
  | static object =>
    refine .pass_source h ht (ht.object object) fun k k' ρ given s₁ h₁ hmore hstands => ?_
    have ht₁ : desk.Tied ρ.Tied desk' := (ht.mono hmore).paired
    exact (h₁.makeStatic_ends hstands).bind fun _ _ _ _ _ hsource hs => .ok ⟨rfl, ht₁.withSource hsource⟩ hs
  | lazy object => exact .of_ends ht (.ok ⟨rfl, htied.withSource (.lazy (htied.object object))⟩ h)
  | contextual object => exact .of_ends ht (.ok ⟨rfl, htied.withSource (.contextual (htied.object object))⟩ h)
  | context level appender source values => exact context_agrees h ht level appender source values
  | derive c d => exact derive_agrees h hfits ht c d
  | value c key default =>
    have hvalue : (s'.context c).value key default = (s.context c).value key default := by
      simp only [Context.value, (h.context c).values]
    refine .of_ends ht ?_
    show Ends _ _ ((lift ((s.context c).value key default) >>= fun v => pure (Answer.value v, desk)) s)
      ((lift ((s'.context c).value key default) >>= fun v => pure (Answer.value v, desk')) s')
    rw [hvalue]
    exact Abreast.lift_bind _ (fun v => .pure ⟨rfl, htied⟩) h
  | build given => exact build_agrees h ht given
  | collect i collecting => exact collect_agrees h ht i collecting
  | collected i => exact .of_ends ht (collected_abreast htied i h)
  | dispatch c level given args templated =>
    refine hdone (hdispatch _ _ ?_ h)
    exact ⟨rfl, rfl, htied.handle given, rfl, rfl⟩
  | emit i c level args =>
    refine hdone (htied.onBuilder (fun e e' he => hdispatch _ _ ?_) i h)
    exact ⟨rfl, rfl, .live he, rfl, rfl⟩
  | append r c level given msg =>
    have happend := Dispatch.append_abreast hI.toMirrored (Store.Matched.attended π) (Store.Matched.shared π r)
      (htied.handle given) c level msg
    exact hdone (happend h)
  | records r => exact .of_ends ht (records_abreast htied r h)
  | clear r => exact hdone (clearRecords_abreast π r h)
  | adjust adjustment => exact hdone (adjustment.perform_ends h)

end Request

/-! ## Runs on both sides -/

namespace Host

variable {h h' : Host}

/-- Two hosts have learned the same, and hold the same but for where their mappings are. -/
def Mirrors (h h' : Host) : Prop :=
  h'.answers = h.answers ∧
    ∃ (n n' : Nat) (π : Pairing n n'), h.store.Matched π h'.store ∧ h.desk.Tied π.Tied h'.desk

/-- A host mirrors itself before it has asked for anything. -/
theorem mirrors_self (hs : s.IsWhole) : Mirrors { store := s } { store := s } := by
  have hpairs : ∀ {m m'}, (Pairing.same s.mappings.length s.mappings.length (Nat.le_refl _)).Tied m m' → m = m' := by
    rintro m m' (⟨hm, -⟩ | ⟨k, hm, hm'⟩)
    · exact hm
    · cases m
      cases m'
      exact congrArg MappingRef.mk (hm.trans hm'.symm)
  refine ⟨rfl, _, _, .same _ _ (Nat.le_refl _), ⟨⟨0, rfl, rfl⟩, fun htied => ?_, hs.tied _, rfl⟩, ⟨.nil, .nil, .nil⟩⟩
  rw [hpairs htied]

theorem Mirrors.step (hcaught : caught.IsBlind) (hm : h.Mirrors h') (hfits : h.desk.Fits h.store) (request : Request) :
    (h.step .live caught depth request).Mirrors (h'.step .copied caught depth request) := by
  obtain ⟨hanswers, n, n', π, hmatched, htied⟩ := hm
  have hagree : Agree h.desk h'.desk h.store h'.store (request.perform .live caught depth h.desk)
      (request.perform .copied caught depth h'.desk) :=
    request.perform_agrees hcaught hmatched hfits (htied.pairs hfits)
  obtain ⟨k, k', ρ, ht, hends⟩ := hagree
  unfold Host.step
  generalize request.perform .live caught depth h.desk h.store = r at hends ⊢
  generalize request.perform .copied caught depth h'.desk h'.store = r' at hends ⊢
  cases hends with
  | @ok a a' _ _ ha hs =>
    obtain ⟨hanswer, hdesk⟩ := ha
    refine ⟨?_, k, k', ρ, hs, hdesk⟩
    show h'.answers ++ [a'.1] = h.answers ++ [a.1]
    rw [hanswers, hanswer]
  | error f hs => exact ⟨congrArg (· ++ [.failed f]) hanswers, k, k', ρ, hs, ht⟩

/-- A host that passes its mappings is mirrored by one that passes copies, whatever they ask for. -/
theorem Mirrors.run (hcaught : caught.IsBlind) (hm : h.Mirrors h') (hfits : h.desk.Fits h.store)
    (requests : List Request) : (h.run .live caught depth requests).Mirrors (h'.run .copied caught depth requests) := by
  induction requests generalizing h h' with
  | nil => exact hm
  | cons request requests ih => exact ih (hm.step hcaught hfits request) (step_fits hfits request)

/-- Nothing has changed but mappings of the host's own: what builders, fixed fields and contexts work on is as it
was, and so is all the rest. -/
structure Unmoved (h h' : Host) : Prop where
  desk : h'.desk = h.desk
  contexts : h'.store.contexts = h.store.contexts
  rest : h'.store.rest = h.store.rest
  kept : ∀ m, h.desk.Keeps h.store m → h'.store.mapping m = h.store.mapping m

/-- What a host does to its mappings moves nothing else. -/
theorem step_change {w : Transfer} (hfits : h.desk.Fits h.store) (i : Nat) (edit : Fields → Fields) :
    h.Unmoved (h.step w caught depth (.change i edit)) := by
  have hstep : h.step w caught depth (.change i edit) =
      ⟨(h.desk.mappings[i]?.map fun m => { h.store with
        mappings := h.store.mappings.set m.index (edit (h.store.mapping m)) }).getD h.store,
        h.desk, h.answers ++ [.done]⟩ := by
    unfold Host.step
    dsimp only [Request.perform, Desk.onMapping]
    cases h.desk.mappings[i]? with
    | some m => rfl
    | none => rfl
  rw [hstep]
  cases hi : h.desk.mappings[i]? with
  | none => exact ⟨rfl, rfl, rfl, fun _ _ => rfl⟩
  | some m =>
    refine ⟨rfl, rfl, rfl, fun q hq => Store.mapping_edited_of_ne ?_ _⟩
    rintro rfl
    exact hfits.apart m (List.mem_of_getElem? hi) hq

end Host

/-! ## Isolation -/

/-- A host that begins with this store, after some requests. -/
def Store.hosted (s : Store) (w : Transfer) (caught : Tolerance) (depth : Nat) (requests : List Request) : Host :=
  Host.run w caught depth { store := s } requests

/-- What a host has passed is cut off from it. All that it learns, and all that is left behind, is as if it had
passed copies (`answers`, `rest`). To change a mapping of its own, which may be one that it has got from a builder,
changes nothing else (`changes`), and what an appender has kept stays as it is until the appender is cleared
(`records`). -/
structure Store.Isolates (s : Store) (caught : Tolerance) (depth : Nat) (requests : List Request) : Prop where
  answers : (s.hosted .live caught depth requests).answers = (s.hosted .copied caught depth requests).answers
  rest : (s.hosted .live caught depth requests).store.rest = (s.hosted .copied caught depth requests).store.rest
  changes : ∀ i edit, (s.hosted .live caught depth requests).Unmoved
    ((s.hosted .live caught depth requests).step .live caught depth (.change i edit))
  records : ∀ r more, .clear r ∉ more →
    ((s.hosted .live caught depth requests).store.appender r).records <+:
      ((s.hosted .live caught depth (requests ++ more)).store.appender r).records

/-- The mappings of a caller are isolated from all that is made of them, whatever is done in between. -/
theorem caller_mappings_isolated (hs : s.IsWhole) (hcaught : caught.IsBlind) (depth : Nat) (requests : List Request) :
    s.Isolates caught depth requests := by
  have hfits : Desk.Fits {} s := .empty hs
  have hmirrors : (s.hosted .live caught depth requests).Mirrors (s.hosted .copied caught depth requests) :=
    (Host.mirrors_self hs).run hcaught hfits requests
  obtain ⟨hanswers, n, n', π, hmatched, -⟩ := hmirrors
  refine ⟨hanswers.symm, hmatched.rest.symm, fun i edit => ?_, fun r more hmore => ?_⟩
  · exact Host.step_change (Host.run_fits hfits requests) i edit
  · unfold Store.hosted
    rw [Host.run_append]
    exact Host.run_records hmore _

/-- A store in which all entries are recorded. -/
def recordingStore : Store where
  appenders := [.recording [] []]
  defaults := { appender := some ⟨0⟩ }

/-- A host that goes on adding to the mapping of which it has made fixed fields, a builder and two contexts. -/
def movingHost : List Request :=
  [.make (.ofList [(.str "city", .str "Austin")]), .static (.mapping 0), .build (.mapping 0),
    .context (.level .info) none (.made 0) (.mapping 0), .change 0 (·.set (.str "street") (.str "Main")),
    .derive ⟨1⟩ (.fields (.mapping 0)), .collected 0, .change 1 fun _ => .empty,
    .change 0 (·.set (.str "number") (.int 12)), .emit 0 (some ⟨1⟩) (.level .info) [.str "moved"],
    .dispatch (some ⟨2⟩) (.level .info) .nothing [.str "moved"] true]

theorem caller_mappings_isolated_movingHost :
    recordingStore.IsWhole ∧ Tolerance.strict.IsBlind ∧ recordingStore.Isolates .strict 2 movingHost ∧
      ((recordingStore.hosted .live .strict 2 movingHost).store.appender ⟨0⟩).records.map
        (·.fields.size) = [1, 2] :=
  have hs : recordingStore.IsWhole := by decide
  have hisolated := caller_mappings_isolated hs Tolerance.strict_isBlind 2 movingHost
  ⟨hs, Tolerance.strict_isBlind, hisolated, by decide +kernel⟩

end ContextLog
