import ContextLog.Configuration
import ContextLog.Proofs.Level
import ContextLog.Proofs.Session
/-!
# What a change of the defaults leaves behind

A call that changes some of the defaults goes one of three ways (`configure_outcome`). If a change does
not fit, the call fails and nothing is changed. If all of them fit and can be shown, they are made and
reported once. In between there is a third way: changes that fit but cannot be shown are made, and then
the call fails, because it shows them only when it reports what it has done (`configure_longNumber`).

So after any sequence of changes and resets each setting is what the last call with fitting changes has
made of it, or what the environment of the last reset has seeded (`Store.adjusted_eq`).
-/

namespace ContextLog

/-- A computation fails in its first part or in what follows. -/
theorem error_of_bind {α β : Type} {x : Except Failure α} {f : α → Except Failure β} {e : Failure}
    (h : (x >>= f) = .error e) : x = .error e ∨ ∃ a, x = .ok a ∧ f a = .error e := by
  cases x with
  | error e' => cases h; exact .inl rfl
  | ok a => exact .inr ⟨a, rfl, h⟩

/-- A computation succeeds in its first part and in what follows. -/
theorem ok_of_bind {α β : Type} {x : Except Failure α} {g : α → Except Failure β} {b : β} (h : (x >>= g) = .ok b) :
    ∃ a, x = .ok a ∧ g a = .ok b := by
  cases x with
  | error e => cases h
  | ok a => exact ⟨a, rfl, h⟩

/-- Applying a function that may fail to every item of a list either gives all results or fails as one
of the items does. -/
theorem mapM_cases {α β : Type} (f : α → Except Failure β) (xs : List α) :
    ((∀ x ∈ xs, (f x).isOk) ∧ ∃ ys, xs.mapM f = .ok ys) ∨
      ∃ x ∈ xs, ∃ e, f x = .error e ∧ xs.mapM f = .error e := by
  induction xs with
  | nil => exact .inl ⟨nofun, [], rfl⟩
  | cons x xs ih =>
    rw [List.mapM_cons]
    cases hx : f x with
    | error e => exact .inr ⟨x, List.mem_cons_self, e, hx, rfl⟩
    | ok y =>
      rcases ih with ⟨hok, ys, hys⟩ | ⟨x', hx', e, he, hys⟩
      · refine .inl ⟨List.forall_mem_cons.2 ⟨by rw [hx]; rfl, hok⟩, y :: ys, ?_⟩
        rw [hys]
        rfl
      · refine .inr ⟨x', List.mem_cons_of_mem _ hx', e, he, ?_⟩
        rw [hys]
        rfl

theorem mapM_congr {α β : Type} {f g : α → Except Failure β} {xs : List α} (h : ∀ x ∈ xs, f x = g x) :
    xs.mapM f = xs.mapM g := by
  induction xs with
  | nil => rfl
  | cons x xs ih =>
    obtain ⟨hx, hxs⟩ := List.forall_mem_cons.1 h
    rw [List.mapM_cons, List.mapM_cons, hx, ih hxs]

/-! ## The changes that count -/

namespace Change

/-- The change to a setting that counts: the last one. -/
def last? (changes : List Change) (name : String) : Option Change :=
  changes.reverse.find? (·.name = name)

/-- The change can be made: its setting exists, and a threshold is a level. -/
def fits : Change → Bool
  | level v => v.level?.isSome
  | unknown _ => false
  | _ => true

/-- The level of a change of the threshold. -/
def level? : Change → Option Level
  | level v => v.level?
  | _ => none

/-- The appender, or the lack of one, of a change of the appender. -/
def appender? : Change → Option (Option AppenderRef)
  | appender a => some a
  | _ => none

/-- The context, or the lack of one, of a change of the context. -/
def context? : Change → Option (Option ContextRef)
  | context c => some c
  | _ => none

/-- The value of a change of the tracing. -/
def debug? : Change → Option Value
  | debug v => some v
  | _ => none

/-- Takes in one more change, in the place of one to the same setting. -/
def keep (kept : List Change) (c : Change) : List Change :=
  if kept.any (·.name = c.name) then kept.map fun k => if k.name = c.name then c else k
  else kept ++ [c]

theorem distinct_eq (changes : List Change) : distinct changes = changes.foldl keep [] := rfl

theorem name_replaced (c k : Change) : (if k.name = c.name then c else k).name = k.name := by
  split
  · exact Eq.symm ‹_›
  · rfl

theorem find?_keep (kept : List Change) (c : Change) (name : String) :
    (keep kept c).find? (·.name = name) =
      if c.name = name then some c else kept.find? (·.name = name) := by
  unfold keep
  cases hany : kept.any (·.name = c.name) with
  | false =>
    have hnone : c.name = name → kept.find? (·.name = name) = none := by
      rintro rfl
      simpa using hany
    rw [if_neg Bool.false_ne_true, List.find?_append]
    by_cases hc : c.name = name
    · simp [hc, hnone hc]
    · simp [hc]
  | true =>
    rw [if_pos rfl, List.find?_map]
    simp only [Function.comp_def, name_replaced]
    cases hk : kept.find? (·.name = name) with
    | none =>
      have hc : c.name ≠ name := by
        rintro rfl
        obtain ⟨k, hmem, hkc⟩ := List.any_eq_true.1 hany
        exact List.find?_eq_none.1 hk k hmem hkc
      simp [hc]
    | some k =>
      have hkn : k.name = name := by simpa using List.find?_some hk
      by_cases hc : c.name = name
      · simp [hc, hkn]
      · simp [hc, hkn, Ne.symm hc]

/-- After all changes are taken in, the last one to each setting is there. -/
theorem find?_distinct (changes : List Change) (name : String) :
    (distinct changes).find? (·.name = name) = last? changes name := by
  have hfold : ∀ kept, (changes.foldl keep kept).find? (·.name = name) =
      (last? changes name).or (kept.find? (·.name = name)) := by
    induction changes with
    | nil => exact fun kept => rfl
    | cons c changes ih =>
      intro kept
      have hlast : last? (c :: changes) name =
          (last? changes name).or (if c.name = name then some c else none) := by
        simp [last?, List.find?_append, List.find?_singleton]
      rw [List.foldl_cons, ih, find?_keep, hlast, Option.or_assoc]
      by_cases hc : c.name = name <;> simp [hc]
  rw [distinct_eq, hfold]
  simp

theorem nodup_keep {kept : List Change} (h : (kept.map name).Nodup) (c : Change) :
    ((keep kept c).map name).Nodup := by
  unfold keep
  cases hany : kept.any (·.name = c.name) with
  | false =>
    rw [if_neg Bool.false_ne_true, List.map_append, List.nodup_append]
    refine ⟨h, by simp, ?_⟩
    simp only [List.mem_map, List.map_cons, List.map_nil, List.mem_singleton]
    rintro _ ⟨k, hk, rfl⟩ _ rfl heq
    simp at hany
    exact hany k hk heq
  | true => simpa [Function.comp_def, name_replaced] using h

/-- No two of the changes that count are to the same setting. -/
theorem nodup_distinct (changes : List Change) : ((distinct changes).map name).Nodup := by
  have hfold : ∀ kept : List Change, (kept.map name).Nodup →
      ((changes.foldl keep kept).map name).Nodup := by
    induction changes with
    | nil => exact fun kept h => h
    | cons c changes ih => exact fun kept h => ih _ (nodup_keep h c)
  exact hfold [] List.nodup_nil

theorem mem_of_mem_distinct {changes : List Change} {c : Change} (hc : c ∈ distinct changes) : c ∈ changes := by
  have hkeep : ∀ (kept : List Change) (k : Change), c ∈ keep kept k → c ∈ kept ∨ c = k := by
    intro kept k h
    unfold keep at h
    split at h
    · obtain ⟨k', hk', rfl⟩ := List.mem_map.1 h
      by_cases hname : k'.name = k.name
      · exact .inr (if_pos hname)
      · rw [if_neg hname]
        exact .inl hk'
    · simpa using h
  have hfold : ∀ kept : List Change, c ∈ changes.foldl keep kept → c ∈ kept ∨ c ∈ changes := by
    clear hc
    induction changes with
    | nil => exact fun kept h => .inl h
    | cons k changes ih =>
      intro kept h
      rcases ih _ h with h | h
      · rcases hkeep kept k h with h | rfl
        · exact .inl h
        · exact .inr List.mem_cons_self
      · exact .inr (List.mem_cons_of_mem _ h)
  rcases hfold [] hc with h | h
  · cases h
  · exact h

/-- Changes that are one to a setting all count. -/
theorem distinct_of_nodup {changes : List Change} (h : (changes.map name).Nodup) :
    distinct changes = changes := by
  have hfold : ∀ kept : List Change, ((kept ++ changes).map name).Nodup →
      changes.foldl keep kept = kept ++ changes := by
    clear h
    induction changes with
    | nil => exact fun kept _ => (List.append_nil kept).symm
    | cons c changes ih =>
      intro kept hn
      have hnew : kept.any (·.name = c.name) = false := by
        rw [List.map_append, List.nodup_append] at hn
        refine List.any_eq_false.2 fun k hk hkc => ?_
        exact hn.2.2 k.name (List.mem_map_of_mem hk) c.name (List.mem_map_of_mem List.mem_cons_self)
          (of_decide_eq_true hkc)
      have hkeep : keep kept c = kept ++ [c] := by rw [keep, hnew, if_neg Bool.false_ne_true]
      have hassoc : kept ++ c :: changes = kept ++ [c] ++ changes := List.append_cons kept c changes
      rw [hassoc] at hn ⊢
      rw [List.foldl_cons, hkeep, ih _ hn]
  rw [distinct_eq]
  exact hfold [] h

end Change

/-! ## Making the changes -/

/-- The defaults with the settings that are given new values. -/
def Defaults.changed (d : Defaults) (change? : String → Option Change) : Defaults where
  level := ((change? "level").bind Change.level?).getD d.level
  appender := ((change? "appender").bind Change.appender?).getD d.appender
  context := ((change? "context").bind Change.context?).getD d.context
  debug := ((change? "debug").bind Change.debug?).getD d.debug

namespace Change

/-- Do all changes that count fit? -/
def allFit (changes : List Change) : Bool := (distinct changes).all fits

/-- A change that fits is made, and the other settings are still to be looked up. -/
theorem apply_of_fits {c : Change} (hc : c.fits) (d : Defaults) :
    ∃ d', apply d c = .ok d' ∧ ∀ change?, change? c.name = none →
      d'.changed change? = d.changed fun n => if c.name = n then some c else change? n := by
  cases c with
  | level v =>
    obtain ⟨l, hl⟩ := Option.isSome_iff_exists.1 hc
    refine ⟨{ d with level := l }, ?_, fun change? (h : change? "level" = none) => ?_⟩
    · simp only [apply, Level.ofValue, hl]
      rfl
    · simp [Defaults.changed, name, h, level?, hl]
  | appender a =>
    refine ⟨_, rfl, fun change? (h : change? "appender" = none) => ?_⟩
    simp [Defaults.changed, name, h, appender?]
  | context c =>
    refine ⟨_, rfl, fun change? (h : change? "context" = none) => ?_⟩
    simp [Defaults.changed, name, h, context?]
  | debug v =>
    refine ⟨_, rfl, fun change? (h : change? "debug" = none) => ?_⟩
    simp [Defaults.changed, name, h, debug?]
  | unknown n => cases hc

/-- Changes that fit, one to a setting, are made side by side. -/
theorem foldlM_apply {changes : List Change} (hfit : ∀ c ∈ changes, c.fits)
    (hn : (changes.map name).Nodup) (d : Defaults) :
    changes.foldlM apply d = .ok (d.changed fun name => changes.find? (·.name = name)) := by
  induction changes generalizing d with
  | nil => rfl
  | cons c changes ih =>
    obtain ⟨hc, hrest⟩ := List.forall_mem_cons.1 hfit
    obtain ⟨hnotin, hn'⟩ := List.nodup_cons.1 hn
    obtain ⟨d', happly, hchanged⟩ := apply_of_fits hc d
    have hnone : changes.find? (·.name = c.name) = none := by
      simpa using fun k hk => fun hkc => hnotin (List.mem_map.2 ⟨k, hk, hkc⟩)
    have hfind : ∀ n, (c :: changes).find? (·.name = n) =
        if c.name = n then some c else changes.find? (·.name = n) := by
      intro n
      by_cases hcn : c.name = n <;> simp [hcn]
    rw [List.foldlM_cons, happly]
    refine (ih hrest hn' d').trans ?_
    simp only [hfind]
    rw [hchanged (fun n => changes.find? (·.name = n)) hnone]

theorem foldlM_apply_ok {changes : List Change} {d d' : Defaults}
    (h : changes.foldlM apply d = .ok d') : ∀ n, unknown n ∉ changes := by
  induction changes generalizing d with
  | nil => exact fun n => List.not_mem_nil
  | cons c changes ih =>
    rw [List.foldlM_cons] at h
    cases hc : apply d c with
    | error f => rw [hc] at h; cases h
    | ok d₁ =>
      rw [hc] at h
      intro n hmem
      rcases List.mem_cons.1 hmem with rfl | hmem
      · cases hc
      · exact ih h n hmem

theorem checkLevel_of_fits {c : Change} (hc : c.fits) : checkLevel c = .ok () := by
  cases c with
  | level v =>
    obtain ⟨l, hl⟩ := Option.isSome_iff_exists.1 hc
    simp only [checkLevel, Level.ofValue, hl]
    rfl
  | unknown n => cases hc
  | _ => rfl

/-- What a change is refused for: a threshold that is no level, or a setting that does not exist. -/
theorem fits_of_checkLevel {c : Change} (h : (checkLevel c).isOk) (hu : ∀ n, c ≠ unknown n) :
    c.fits := by
  cases c with
  | level v =>
    cases hl : v.level? with
    | some l => exact Option.isSome_iff_exists.2 ⟨l, hl⟩
    | none =>
      simp only [checkLevel, Level.ofValue, hl] at h
      cases hr : v.repr with
      | ok t => rw [hr] at h; cases h
      | error f => rw [hr] at h; cases h
  | unknown n => exact absurd rfl (hu n)
  | _ => rfl

/-- Changes that all fit are made, one to a setting. -/
theorem applyAll_of_allFit {changes : List Change} (h : allFit changes) (d : Defaults) :
    applyAll d changes = .ok (d.changed (last? changes)) := by
  have hfit : ∀ c ∈ distinct changes, c.fits := List.all_eq_true.1 h
  have hfold := foldlM_apply hfit (nodup_distinct changes) d
  simp only [find?_distinct] at hfold
  unfold applyAll
  rcases mapM_cases checkLevel (distinct changes) with ⟨-, us, hus⟩ | ⟨c, hc, f, hf, -⟩
  · dsimp only
    rw [hus]
    exact hfold
  · rw [checkLevel_of_fits (hfit c hc)] at hf
    cases hf

/-- If some change does not fit, none is made. -/
theorem applyAll_of_not_allFit {changes : List Change} (h : allFit changes = false) (d : Defaults) :
    ∃ f, applyAll d changes = .error f := by
  unfold applyAll
  dsimp only
  rcases mapM_cases checkLevel (distinct changes) with ⟨hok, us, hus⟩ | ⟨c, hc, f, hf, hus⟩
  · rw [hus]
    cases hfold : (distinct changes).foldlM apply d with
    | error f => exact ⟨f, rfl⟩
    | ok d' =>
      -- Then no setting is unknown and every threshold is a level, so that all changes fit.
      have hunknown := foldlM_apply_ok hfold
      have hfit : allFit changes = true := List.all_eq_true.2 fun c hc =>
        fits_of_checkLevel (hok c hc) fun n hcn => hunknown n (hcn ▸ hc)
      rw [h] at hfit
      cases hfit
  · exact ⟨f, by rw [hus]; rfl⟩

end Change

/-! ## Showing the changes -/

namespace Store

variable {s : Store}

theorem appenderText_error {a : Option AppenderRef} {f : Failure} (h : s.appenderText a = .error f) :
    f = .numeralTooLong := by
  cases a with
  | none => cases h
  | some a =>
    change (s.appender a).repr a = .error f at h
    unfold Appender.repr at h
    split at h
    · cases h
    · cases h
    · exact Value.repr_error _ h
    · cases h

theorem sourceText_error {source : Source} {f : Failure} (h : s.sourceText source = .error f) :
    f = .numeralTooLong := by
  induction source generalizing f with
  | value v => exact Value.repr_error v h
  | mapping m => exact Value.repr_error _ h
  | producer p => cases h
  | static m =>
    rcases error_of_bind h with h | ⟨_, -, h⟩
    · exact Value.repr_error _ h
    · cases h
  | lazy of ih =>
    rcases error_of_bind h with h | ⟨_, -, h⟩
    · exact ih h
    · cases h
  | contextual of ih =>
    rcases error_of_bind h with h | ⟨_, -, h⟩
    · exact ih h
    · cases h

theorem contextText_error {c : Option ContextRef} {f : Failure} (h : s.contextText c = .error f) :
    f = .numeralTooLong := by
  cases c with
  | none => cases h
  | some c =>
    rcases error_of_bind h with h | ⟨level, -, h⟩
    · exact Value.repr_error _ h
    rcases error_of_bind h with h | ⟨appender, -, h⟩
    · exact appenderText_error h
    rcases error_of_bind h with h | ⟨source, -, h⟩
    · exact sourceText_error h
    rcases error_of_bind h with h | ⟨values, -, h⟩
    · exact Value.repr_error _ h
    · cases h

/-- A change that cannot be shown holds a number with too many digits. -/
theorem changeText_error {c : Change} {f : Failure} (h : s.changeText c = .error f) :
    f = .numeralTooLong := by
  cases c with
  | level v =>
    unfold changeText at h
    dsimp only at h
    split at h
    · cases h
    · exact Value.repr_error v h
  | appender a => exact appenderText_error h
  | context c => exact contextText_error h
  | debug v => exact Value.repr_error v h
  | unknown n => cases h

/-- Can all changes that count be shown? -/
def shows (s : Store) (changes : List Change) : Bool :=
  (Change.distinct changes).all fun c => (s.changeText c).isOk

/-- All changes that count are shown, or one of them has a number with too many digits. -/
theorem shown_cases (s : Store) (changes : List Change) :
    (s.shows changes ∧ ∃ shown, ((Change.distinct changes).mapM fun c => do
      return (c.name, ← s.changeText c)) = .ok shown) ∨
    (s.shows changes = false ∧ ((Change.distinct changes).mapM fun c => do
      return (c.name, ← s.changeText c)) = .error .numeralTooLong) := by
  rcases mapM_cases (fun c => do return (Change.name c, ← s.changeText c)) (Change.distinct changes)
    with ⟨hok, hshown⟩ | ⟨c, hc, f, hf, hshown⟩
  · refine .inl ⟨List.all_eq_true.2 fun c hc => ?_, hshown⟩
    have hcok := hok c hc
    cases hct : s.changeText c with
    | ok text => rfl
    | error f => rw [hct] at hcok; cases hcok
  · cases hct : s.changeText c with
    | ok text => rw [hct] at hf; cases hf
    | error f' =>
      rw [hct] at hf
      cases hf
      refine .inr ⟨List.all_eq_false.2 ⟨c, hc, ?_⟩, changeText_error hct ▸ hshown⟩
      rw [hct]
      exact Bool.false_ne_true

theorem sourceText_congr {s' : Store} (hmapping : s'.mapping = s.mapping) (hproducer : s'.producer = s.producer)
    (source : Source) : s'.sourceText source = s.sourceText source := by
  induction source with
  | value v => rfl
  | mapping m => simp only [sourceText, hmapping]
  | producer p => simp only [sourceText, hproducer]
  | static m => simp only [sourceText, hmapping]
  | lazy of ih => simp only [sourceText, ih]
  | contextual of ih => simp only [sourceText, ih]

theorem appenderText_congr {s' : Store} (happender : s'.appender = s.appender) (a : Option AppenderRef) :
    s'.appenderText a = s.appenderText a := by
  cases a <;> simp only [appenderText, happender]

/-- How a change is shown is a matter of what stands behind it. -/
theorem changeText_congr {s' : Store} {change : Change} (hmapping : s'.mapping = s.mapping)
    (hproducer : s'.producer = s.producer) (happender : s'.appender = s.appender)
    (hcontext : ∀ c, change = .context (some c) → s'.context c = s.context c) :
    s'.changeText change = s.changeText change := by
  cases change with
  | appender a => exact appenderText_congr happender a
  | context c =>
    cases c with
    | none => rfl
    | some c =>
      simp only [changeText, contextText, hcontext c rfl, appenderText_congr happender,
        sourceText_congr hmapping hproducer]
  | _ => rfl

/-- How a change is shown has nothing to do with the defaults. -/
theorem changeText_changed (s : Store) (d : Defaults) (journal : List Report) (c : Change) :
    ({ s with defaults := d, journal } : Store).changeText c = s.changeText c :=
  changeText_congr rfl rfl rfl fun _ _ => rfl

end Store

/-! ## One call -/

/-- What becomes of a call that changes some of the defaults. -/
structure ConfigureOutcome (s : Store) (changes : List Change) : Prop where
  /-- If a change does not fit, the call fails and leaves everything as it was. -/
  refused : Change.allFit changes = false → ∃ f, configure changes s = .error f s
  /-- If all changes fit and can be shown, they are made, and reported once. -/
  returned : Change.allFit changes → s.shows changes → ∃ shown, configure changes s = .ok ()
    { s with
      defaults := s.defaults.changed (Change.last? changes)
      journal := s.journal ++ [.configured shown] }
  /-- If all changes fit and one cannot be shown, they are made, and then the call fails without a
  report. -/
  unshown : Change.allFit changes → s.shows changes = false → configure changes s =
    .error .numeralTooLong { s with defaults := s.defaults.changed (Change.last? changes) }

/-- A call fails before it has done anything, or goes on to show what it has set. -/
theorem configure_run (s : Store) (changes : List Change) :
    configure changes s = match Change.applyAll s.defaults changes with
      | .error f => .error f s
      | .ok d => (do
          let shown ← Session.lift ((Change.distinct changes).mapM fun c => do
            return (c.name, ← s.changeText c))
          Session.report [.configured shown]) { s with defaults := d } := by
  have hagain := Change.distinct_of_nodup (Change.nodup_distinct changes)
  have happly : Change.applyAll s.defaults (Change.distinct changes) =
      Change.applyAll s.defaults changes := by
    unfold Change.applyAll
    dsimp only
    rw [hagain]
  unfold configure
  rw [Session.run_bind_ok Session.run_get, happly]
  cases hd : Change.applyAll s.defaults changes with
  | error f => rfl
  | ok d =>
    rw [Session.run_bind_ok (Session.run_lift_ok d), Session.run_seq_ok (Session.run_modify _),
      Session.run_bind_ok Session.run_get]
    have htext : ∀ c, ({ s with defaults := d } : Store).changeText c = s.changeText c :=
      s.changeText_changed d s.journal
    simp only [htext]

theorem configure_outcome (s : Store) (changes : List Change) : ConfigureOutcome s changes := by
  refine ⟨fun hfit => ?_, fun hfit hshow => ?_, fun hfit hshow => ?_⟩
  · obtain ⟨f, hf⟩ := Change.applyAll_of_not_allFit hfit s.defaults
    exact ⟨f, by rw [configure_run, hf]⟩
  · rw [configure_run, Change.applyAll_of_allFit hfit]
    rcases s.shown_cases changes with ⟨-, shown, hshown⟩ | ⟨hno, -⟩
    · exact ⟨shown, by dsimp only; rw [hshown]; rfl⟩
    · rw [hshow] at hno; cases hno
  · rw [configure_run, Change.applyAll_of_allFit hfit]
    rcases s.shown_cases changes with ⟨hyes, -⟩ | ⟨-, hshown⟩
    · rw [hshow] at hyes; cases hyes
    · dsimp only
      rw [hshown]
      rfl

/-! ## Any sequence of calls -/

/-- A call that changes some of the defaults, or one that replaces them all. -/
inductive Adjustment
  | configure (changes : List Change)
  | reset (environment : Environment)

/-- The value of a setting, as a change to it. -/
def Defaults.change? (d : Defaults) : String → Option Change
  | "level" => some (.level (.level d.level))
  | "appender" => some (.appender d.appender)
  | "context" => some (.context d.context)
  | "debug" => some (.debug d.debug)
  | _ => none

namespace Adjustment

/-- Makes the call. -/
def perform : Adjustment → Session Unit
  | configure changes => ContextLog.configure changes
  | reset environment => resetDefaults environment

/-- The change that a call makes to a setting: the one that it names if all of its changes fit, or what
the environment seeds. -/
def change? : Adjustment → String → Option Change
  | configure changes, name => if Change.allFit changes then Change.last? changes name else none
  | reset environment, name => (Defaults.ofEnvironment environment).1.change? name

/-- The change that is made to a setting is one to that setting, and fits. -/
theorem change?_fits {call : Adjustment} {name : String} {c : Change} (h : call.change? name = some c) :
    c.name = name ∧ c.fits := by
  cases call with
  | configure changes =>
    rw [change?] at h
    split at h
    · rename_i hfit
      rw [← Change.find?_distinct] at h
      have hname := List.find?_some h
      exact ⟨of_decide_eq_true hname, List.all_eq_true.1 hfit c (List.mem_of_find?_eq_some h)⟩
    · cases h
  | reset environment =>
    rw [change?, Defaults.change?.eq_def] at h
    split at h <;> cases h
    · refine ⟨rfl, ?_⟩
      show (Value.level _).level?.isSome
      rw [Value.level?_eq_some_iff.2 rfl]
      rfl
    all_goals exact ⟨rfl, rfl⟩

end Adjustment

theorem getD_or {α β : Type} {later earlier : Option α} {f : α → Option β} {d : β}
    (h : ∀ c, later = some c → (f c).isSome) :
    ((later.or earlier).bind f).getD d = (later.bind f).getD ((earlier.bind f).getD d) := by
  cases later with
  | none => rfl
  | some c =>
    obtain ⟨b, hb⟩ := Option.isSome_iff_exists.1 (h c rfl)
    simp [hb]

theorem Defaults.changed_changed (d : Defaults) (earlier : String → Option Change)
    {later : String → Option Change} (h : ∀ name c, later name = some c → c.name = name ∧ c.fits) :
    (d.changed earlier).changed later = d.changed fun name => (later name).or (earlier name) := by
  -- A change that fits and has the name of a setting has a value for it.
  have hvalue : ∀ name c, later name = some c → (name = "level" → c.level?.isSome) ∧
      (name = "appender" → c.appender?.isSome) ∧ (name = "context" → c.context?.isSome) ∧
      (name = "debug" → c.debug?.isSome) := by
    intro name c hc
    obtain ⟨rfl, hfit⟩ := h name c hc
    cases c with
    | level v =>
      have hlevel : v.level?.isSome := hfit
      simp [Change.name, Change.level?, hlevel]
    | unknown n => cases hfit
    | _ => simp [Change.name, Change.appender?, Change.context?, Change.debug?]
  simp only [changed]
  rw [getD_or fun c hc => (hvalue _ c hc).1 rfl, getD_or fun c hc => (hvalue _ c hc).2.1 rfl,
    getD_or fun c hc => (hvalue _ c hc).2.2.1 rfl, getD_or fun c hc => (hvalue _ c hc).2.2.2 rfl]

theorem Defaults.changed_none (d : Defaults) : (d.changed fun _ => none) = d := rfl

theorem Defaults.changed_change? (d d' : Defaults) : d.changed d'.change? = d' := by
  have hlevel : (Value.level d'.level).level? = some d'.level := Value.level?_eq_some_iff.2 rfl
  simp [changed, change?, Change.level?, hlevel, Change.appender?, Change.context?, Change.debug?]

/-- The store after a sequence of calls, whichever way each of them ended. -/
def Store.adjusted (s : Store) (calls : List Adjustment) : Store :=
  calls.foldl (fun s call => call.perform.leaves s) s

/-- One call changes the defaults, and nothing else but the journal. -/
theorem Adjustment.leaves_perform (s : Store) (call : Adjustment) :
    ∃ journal, call.perform.leaves s =
      { s with defaults := s.defaults.changed call.change?, journal } := by
  cases call with
  | configure changes =>
    have h := configure_outcome s changes
    cases hfit : Change.allFit changes with
    | false =>
      obtain ⟨f, hf⟩ := h.refused hfit
      have hchange : (Adjustment.configure changes).change? = fun _ => none :=
        funext fun name => if_neg (by rw [hfit]; exact Bool.false_ne_true)
      refine ⟨s.journal, ?_⟩
      rw [hchange, Defaults.changed_none]
      simp only [perform, Session.leaves, hf]
    | true =>
      have hchange : (Adjustment.configure changes).change? = Change.last? changes :=
        funext fun name => if_pos hfit
      rw [hchange]
      cases hshow : s.shows changes with
      | true =>
        obtain ⟨shown, hs⟩ := h.returned hfit hshow
        exact ⟨_, Session.leaves_ok hs⟩
      | false =>
        have hs := h.unshown hfit hshow
        refine ⟨s.journal, ?_⟩
        simp only [perform, Session.leaves, hs]
  | reset environment =>
    refine ⟨s.journal ++ (Defaults.ofEnvironment environment).2, ?_⟩
    have hseed : s.defaults.changed (Adjustment.reset environment).change? =
        (Defaults.ofEnvironment environment).1 := s.defaults.changed_change? _
    rw [hseed]
    rfl

/-- A sequence of calls leaves in each setting what the last call that made a change to it has set. -/
theorem Store.adjusted_eq (s : Store) (calls : List Adjustment) :
    ∃ journal, s.adjusted calls = { s with
      defaults := s.defaults.changed fun name => calls.reverse.findSome? (·.change? name)
      journal } := by
  induction calls generalizing s with
  | nil => exact ⟨s.journal, rfl⟩
  | cons call calls ih =>
    obtain ⟨journal, hcall⟩ := call.leaves_perform s
    obtain ⟨journal', hcalls⟩ := ih (call.perform.leaves s)
    refine ⟨journal', ?_⟩
    have hstep : s.adjusted (call :: calls) = (call.perform.leaves s).adjusted calls := rfl
    have hfits : ∀ name c, calls.reverse.findSome? (·.change? name) = some c → c.name = name ∧ c.fits := by
      intro name c hc
      obtain ⟨later, -, hlater⟩ := List.exists_of_findSome?_eq_some hc
      exact Adjustment.change?_fits hlater
    rw [hstep, hcalls, hcall]
    dsimp only
    rw [Defaults.changed_changed _ _ hfits]
    simp [List.findSome?_append]

/-! ## The law -/

/-- A call that changes some of the defaults, after any sequence of such calls and of resets, finds in
each setting the change by the last call whose changes all fit, or what the last reset has seeded; and
it leaves the settings as they are if one of its own changes does not fit, else it makes all of them and
reports them once, unless one of them cannot be shown. -/
theorem defaults_adjusted (s : Store) (calls : List Adjustment) (changes : List Change) :
    (s.adjusted calls).defaults =
        s.defaults.changed (fun name => calls.reverse.findSome? (·.change? name)) ∧
      (s.adjusted calls).shows changes = s.shows changes ∧
      ConfigureOutcome (s.adjusted calls) changes := by
  obtain ⟨journal, hcalls⟩ := s.adjusted_eq calls
  refine ⟨by rw [hcalls], ?_, configure_outcome _ changes⟩
  rw [hcalls]
  simp only [Store.shows, Store.changeText_changed]

/-! ## Changes that are made and not reported -/

theorem lt_length_toDigits_iff {n k : Nat} (hk : 0 < k) :
    k < (Nat.toDigits 10 n).length ↔ Decimal.tenTo k ≤ n := by
  rw [← Nat.not_le, Nat.length_toDigits_le_iff (by decide) hk, Nat.not_lt]
  rfl

theorem wholeText_tooLong {n : Int} (h : Decimal.tenTo Decimal.digitLimit ≤ n.natAbs) :
    wholeText n = .error .numeralTooLong := by
  have hlong := (lt_length_toDigits_iff (by decide)).2 h
  unfold wholeText
  dsimp only
  rw [if_pos hlong]

theorem wholeText_tenTo : wholeText (Decimal.tenTo Decimal.digitLimit) = .error .numeralTooLong :=
  wholeText_tooLong (Nat.le_of_eq (Int.natAbs_natCast _).symm)

/-- A store with a context whose only request value is a number with one digit too many. -/
def longNumber : Store where
  contexts := [{}, { values := .ofList [(.str "n", .int (Decimal.tenTo Decimal.digitLimit))] }]

theorem contextText_longNumber : longNumber.contextText (some ⟨1⟩) = .error .numeralTooLong := by
  have hvalues : Value.reprDict (longNumber.context ⟨1⟩).values.entries = .error .numeralTooLong := by
    have hentries : (longNumber.context ⟨1⟩).values.entries =
        [(.str "n", .int (Decimal.tenTo Decimal.digitLimit))] := rfl
    rw [hentries]
    simp only [Value.reprDict, Value.repr, Value.repr.reprEntries, wholeText_tenTo]
    rfl
  unfold Store.contextText
  simp only [hvalues]
  rfl

/-- The call that makes this context the default one fails, reports nothing, and has made it the default
one. -/
theorem configure_longNumber :
    ∃ f s, configure [.context (some ⟨1⟩)] longNumber = .error f s ∧ s.journal = longNumber.journal ∧
      s.defaults.context ≠ longNumber.defaults.context := by
  have hshow : longNumber.shows [.context (some ⟨1⟩)] = false := by
    simp [Store.shows, Change.distinct, Store.changeText, contextText_longNumber]
    rfl
  refine ⟨_, _, (configure_outcome longNumber [.context (some ⟨1⟩)]).unshown rfl hshow, rfl, ?_⟩
  decide

end ContextLog
