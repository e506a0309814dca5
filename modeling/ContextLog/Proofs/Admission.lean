import ContextLog.Dispatch
import ContextLog.Proofs.Level
import ContextLog.Proofs.Session
/-!
# Which entries are let through

Whether an entry goes on is settled by its level, its context and the defaults, in this order: a
value that is no level is refused, an entry below the threshold is dropped, and one without an
appender is refused. `admission_eq_of_sameGate` says that nothing else counts, and
`rejected_at_once` that an entry which does not go on leaves the store as it was.
-/

namespace ContextLog

/-! ## The gate -/

theorem Level.exceeds_level (l t : Level) : l.exceeds (.level t) = .ok (decide (t < l)) := by
  simp [exceeds, Value.quantity?, Quantity.compare?, Int.compare_eq_gt, lt_def]

/-- The threshold of a context is a level, or it is unset. -/
def Context.IsRegular (c : Context) : Prop := c.level = .none ∨ ∃ l : Level, c.level = .level l

namespace Store

/-- The least severe level that gets through a context. -/
def threshold (s : Store) (c : ContextRef) : Level :=
  match (s.context c).level with
  | .level l => l
  | _ => s.defaults.level

/-- An entry is let through: its level is one and passes the threshold, and there is an appender. -/
structure Admits (s : Store) (context : Option ContextRef) (level : Value) (c : ContextRef)
    (l : Level) (a : AppenderRef) : Prop where
  context : context.or s.defaults.context = some c
  regular : (s.context c).IsRegular
  level : level.SameKey (.level l)
  passes : l ≤ s.threshold c
  appender : s.appenderOf s.defaults c = some a

/-- Two stores with the same defaults, in which a context has the same threshold and appender. Its
source, its values and all else may differ. -/
structure SameGate (s s' : Store) (c : ContextRef) : Prop where
  defaults : s'.defaults = s.defaults
  level : (s'.context c).level = (s.context c).level
  appender : (s'.context c).appender = (s.context c).appender

variable {s s' : Store} {context : Option ContextRef} {level : Value} {c : ContextRef} {l : Level}
  {a : AppenderRef}

theorem levelOf_eq (h : (s.context c).IsRegular) :
    s.levelOf s.defaults c = .level (s.threshold c) := by
  unfold levelOf threshold
  rcases h with h | ⟨t, h⟩ <;> rw [h]

/-- Whether an entry goes on depends on the gate of its context alone. -/
theorem admission_eq_of_sameGate (hc : context.or s.defaults.context = some c)
    (h : SameGate s s' c) : s'.admission context level = s.admission context level := by
  have hl : s'.levelOf s.defaults c = s.levelOf s.defaults c := by unfold levelOf; rw [h.level]
  have ha : s'.appenderOf s.defaults c = s.appenderOf s.defaults c := by
    unfold appenderOf; rw [h.appender]
  unfold admission
  simp only [h.defaults, hc, hl, ha]

/-- Where all contexts have the same gates, the same entries go on. -/
theorem admission_eq_of_gates (h : ∀ c, SameGate s s' c) : s'.admission context level = s.admission context level := by
  cases hc : context.or s.defaults.context with
  | some c => exact admission_eq_of_sameGate hc (h c)
  | none =>
    have hdefaults := (h .background).defaults
    unfold admission
    rw [hdefaults, hc]

/-- What an admitted entry is dispatched with. -/
theorem admission_admitted (h : s.admission context level = .admitted c l a) :
    context.or s.defaults.context = some c ∧ Level.ofValue level = .ok l := by
  unfold admission at h
  cases hl : Level.ofValue level with
  | error f => rw [hl] at h; cases h
  | ok l' =>
    cases hc : context.or s.defaults.context with
    | none => rw [hl, hc] at h; cases h
    | some c' =>
      rw [hl, hc] at h
      dsimp only at h
      split at h
      · cases h
      · cases h
      · split at h <;> cases h
        exact ⟨rfl, rfl⟩

theorem admission_of_no_level {f : Failure} (h : Level.ofValue level = .error f) :
    s.admission context level = .refused f := by
  unfold admission; rw [h]

theorem admission_of_level (hc : context.or s.defaults.context = some c)
    (hr : (s.context c).IsRegular) (hl : level.SameKey (.level l)) :
    s.admission context level =
      if s.threshold c < l then .filtered
      else match s.appenderOf s.defaults c with
        | none => .refused .missingAppender
        | some a => .admitted c l a := by
  unfold admission
  rw [Level.ofValue_of_sameKey hl, hc]
  dsimp only
  rw [levelOf_eq hr, Level.exceeds_level]
  by_cases h : s.threshold c < l
  · simp [h]
  · cases ha : s.appenderOf s.defaults c <;> simp [h]

theorem Admits.admission (h : s.Admits context level c l a) :
    s.admission context level = .admitted c l a := by
  rw [admission_of_level h.context h.regular h.level, if_neg (Level.not_lt.2 h.passes), h.appender]

end Store

/-- A dispatch does what the admission of its entry says. -/
theorem dispatchWith_run (nested : Call → Session Unit) (call : Call) (s : Store) :
    dispatchWith nested call s = match s.admission call.context call.level with
      | .refused failure => .error failure s
      | .filtered => .ok () s
      | .admitted c level a => Dispatch.deliver nested c level a call s := by
  unfold dispatchWith
  rw [Session.run_bind_ok Session.run_get]
  cases s.admission call.context call.level <;> rfl

/-! ## Entries that do not go on -/

open Store

/-- Every entry of a level through a context ends in one way and at once: whatever its fields and
arguments are, whatever the source of the context is and whatever else the store holds, the store is
left as it was. -/
def EndsAtOnce (s : Store) (context : Option ContextRef) (c : ContextRef) (level : Value)
    (result : Except Failure Unit) : Prop :=
  ∀ (depth : Nat) (s' : Store) (call : Call), SameGate s s' c → call.context = context →
    call.level = level → dispatch (depth + 1) call s' = match result with
      | .ok () => .ok () s'
      | .error f => .error f s'

theorem endsAtOnce_of_refused {s : Store} {context : Option ContextRef} {c : ContextRef}
    {level : Value} {f : Failure} (hc : context.or s.defaults.context = some c)
    (h : s.admission context level = .refused f) : EndsAtOnce s context c level (.error f) := by
  rintro depth s' call hg rfl rfl
  show dispatchWith (dispatch depth) call s' = _
  unfold dispatchWith
  rw [Session.run_bind_ok Session.run_get, admission_eq_of_sameGate hc hg, h]
  rfl

theorem endsAtOnce_of_filtered {s : Store} {context : Option ContextRef} {c : ContextRef}
    {level : Value} (hc : context.or s.defaults.context = some c)
    (h : s.admission context level = .filtered) : EndsAtOnce s context c level (.ok ()) := by
  rintro depth s' call hg rfl rfl
  show dispatchWith (dispatch depth) call s' = _
  unfold dispatchWith
  rw [Session.run_bind_ok Session.run_get, admission_eq_of_sameGate hc hg, h]
  rfl

/-- An entry that does not go on touches nothing, and what becomes of it is settled by its context
and its level: a value that is no level is an error of value, else an entry below the threshold
returns even if there is no appender, else one without an appender is refused. -/
theorem rejected_at_once {s : Store} {context : Option ContextRef} {c : ContextRef}
    (hc : context.or s.defaults.context = some c) (hr : (s.context c).IsRegular) (level : Value) :
    ((∀ l : Level, ¬ level.SameKey (.level l)) →
      ∃ f, f.kind = .value ∧ EndsAtOnce s context c level (.error f)) ∧
    ∀ l : Level, level.SameKey (.level l) →
      (s.threshold c < l → EndsAtOnce s context c level (.ok ())) ∧
      (l ≤ s.threshold c → s.appenderOf s.defaults c = none →
        EndsAtOnce s context c level (.error .missingAppender)) := by
  refine ⟨fun hn => ?_, fun l hl => ⟨fun ht => ?_, fun ht ha => ?_⟩⟩
  · obtain ⟨f, hf, hk⟩ := Level.ofValue_error hn
    exact ⟨f, hk, endsAtOnce_of_refused hc (admission_of_no_level hf)⟩
  · refine endsAtOnce_of_filtered hc ?_
    rw [admission_of_level hc hr hl, if_pos ht]
  · refine endsAtOnce_of_refused hc ?_
    rw [admission_of_level hc hr hl, if_neg (Level.not_lt.2 ht), ha]

/-- A store with a context that lets warnings through but has no appender. -/
def warningsOnly : Store := { contexts := [{}, { level := .level .warn }] }

/-- Through a context for warnings without an appender the text `loud` is no level, an entry of rank 4
is dropped, and one of rank 2 is refused. -/
theorem rejected_at_once_warningsOnly :
    (∃ f, f.kind = .value ∧
      EndsAtOnce warningsOnly (some ⟨1⟩) ⟨1⟩ (.str "loud") (.error f)) ∧
    EndsAtOnce warningsOnly (some ⟨1⟩) ⟨1⟩ (.int 4) (.ok ()) ∧
    EndsAtOnce warningsOnly (some ⟨1⟩) ⟨1⟩ (.int 2) (.error .missingAppender) := by
  have hc : (some (⟨1⟩ : ContextRef)).or warningsOnly.defaults.context = some ⟨1⟩ := rfl
  have h := rejected_at_once hc (.inr ⟨.warn, rfl⟩)
  refine ⟨(h (.str "loud")).1 ?_, ((h (.int 4)).2 .info ?_).1 ?_, ((h (.int 2)).2 .error ?_).2 ?_ ?_⟩
  · intro l; cases l <;> decide
  all_goals decide

end ContextLog
