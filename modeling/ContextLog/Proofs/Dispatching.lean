import ContextLog.Proofs.Receive
/-!
# What every step keeps, every dispatch keeps

An entry goes from its fields to its message, to its appender and to what follows at its level, and
each of these is made of the steps of `ContextLog.Proofs.Step`. So `dispatch_keeps` is proved once, for
entries inside entries to any depth, and an invariant of dispatches is a case analysis over the steps.
-/

namespace ContextLog

open Store

variable {owned : MappingRef → Prop} {D : Delivery → Prop} {I : Store → Prop} {s : Store}
  {nested : Call → Session Unit}

namespace Dispatch

theorem message_yields (hI : Steady owned D I) (hs : I s) (args : List Value) (templated : Bool) :
    (message args templated).Yields s I fun msg s' =>
      (formatMessage args templated).2 = .ok msg ∧ ∃ rs, s' = { s with journal := s.journal ++ rs } := by
  unfold message
  dsimp only
  refine Session.Yields.bind (Q := fun _ s' => ∃ rs, s' = { s with journal := s.journal ++ rs })
    ⟨hI.step hs (.reported s _), _, rfl⟩ ?_
  rintro - s₁ hs₁ ⟨rs, rfl⟩
  exact .lift hs₁ fun msg hm => ⟨hm, rs, rfl⟩

theorem trace_yields (hI : Steady owned D I) (hs : I s) (a : AppenderRef) (level : Value)
    (fields : Handle) (msg : Value) :
    (trace a level fields msg).Yields s I fun _ s' =>
      ∃ rs, s' = { s with journal := s.journal ++ rs } := by
  unfold trace
  refine .get (.lift_bind hs fun event _ => ?_)
  exact ⟨hI.step hs (.reported s _), _, rfl⟩

theorem append_keeps (hI : Steady owned D I) (hs : I s) {a : AppenderRef} {ctx : Option ContextRef}
    {level : Value} {fields : Handle} {msg : Value} (hr : Receptive owned a fields I)
    (hD : D ⟨a, ctx, level, s.supplied fields, msg⟩) :
    (append a ctx level fields msg).Yields s I fun _ _ => True := by
  unfold append
  refine .get (.modify ?_)
  exact receive_keeps hr ctx level msg _ (hI.step hs (.delivered s _ hD))

theorem flush_keeps (channel : Option Channel) : (flush channel).Keeps I := by
  unfold flush
  cases channel with
  | none => exact .pure _
  | some channel =>
    dsimp only
    cases channel.flushFailure with
    | none => exact .pure _
    | some failure => exact .throw _

theorem followUp_keeps (level : Level) (msg : Text) : (followUp level msg).Keeps I := by
  unfold followUp
  cases level with
  | fatal =>
    refine .get fun s hs => ?_
    split
    · refine (flush_keeps s.stdout s hs).bind fun _ s₁ hs₁ _ => ?_
      exact (flush_keeps s.stderr s₁ hs₁).bind fun _ s₂ hs₂ _ => hs₂
    · exact hs
  | panic => exact .throw _
  | _ => exact .pure _

/-- What follows a delivery changes nothing. -/
theorem followUp_leaves (l : Level) (msg : Text) (s : Store) : (followUp l msg).leaves s = s :=
  (followUp_keeps (I := (· = s)) l msg).leaves rfl

/-- What comes between the message of an entry and what follows at its level: the entry is reported if entries
are traced, and goes to its appender. -/
def handOver (debug : Value) (c : ContextRef) (level : Level) (a : AppenderRef) (fields : Handle) (msg : Text) :
    Session Unit := do
  if debug.isTrue then trace a (.level level) fields (.text msg)
  append a (some c) (.level level) fields (.text msg)

/-- Once an entry has its fields, all that is left of the defaults is whether entries were traced when it
began. -/
theorem deliver_of_fields {c : ContextRef} {level : Level} {a : AppenderRef} {call : Call} {h : Handle}
    {s₁ : Store} (hx : entryFields nested c level call s = .ok h s₁) :
    deliver nested c level a call s = (do
      let msg ← message call.args call.templated
      handOver s.defaults.debug c level a h msg
      followUp level msg) s₁ := by
  unfold deliver handOver
  rw [Session.run_bind_ok Session.run_get, Session.run_bind_ok hx]
  cases s.defaults.debug.isTrue with
  | true => simp only [if_pos, bind_assoc]
  | false => simp only [Bool.false_eq_true, if_false]

/-- Delivering keeps what resolving the fields keeps, if the appender keeps it too and the delivery that
follows is one with `D`. -/
theorem deliver_keeps (hI : Steady owned D I) {c : ContextRef} {level : Level} {a : AppenderRef}
    {call : Call}
    (hfields : (entryFields nested c level call).Yields s I fun h s' =>
      Receptive owned a h I ∧ ∀ msg, (formatMessage call.args call.templated).2 = .ok msg →
        D ⟨a, some c, .level level, s'.supplied h, .text msg⟩) :
    (deliver nested c level a call).Yields s I fun _ _ => True := by
  unfold deliver
  refine .get (hfields.bind fun h s₁ hs₁ ⟨hr, hD⟩ => ?_)
  refine (message_yields hI hs₁ call.args call.templated).bind ?_
  rintro msg s₂ hs₂ ⟨hmsg, rs, rfl⟩
  -- A report may come in between; what follows it is the same.
  have hlast : ∀ rs', I { s₁ with journal := rs' } →
      (do append a (some c) (.level level) h (.text msg); followUp level msg).Yields
        { s₁ with journal := rs' } I fun _ _ => True := fun rs' hs' =>
    (append_keeps hI hs' hr (hD msg hmsg)).bind fun _ s₃ hs₃ _ => followUp_keeps level msg s₃ hs₃
  split
  · refine (trace_yields hI hs₂ a _ h _).bind ?_
    rintro - s₃ hs₃ ⟨rs', rfl⟩
    exact hlast _ hs₃
  · exact hlast _ hs₂

end Dispatch

/-- A dispatch keeps whatever delivering an admitted entry keeps. -/
theorem dispatchWith_keeps {call : Call} (hs : I s)
    (h : ∀ c level a, s.admission call.context call.level = .admitted c level a →
      (Dispatch.deliver nested c level a call).Yields s I fun _ _ => True) :
    (dispatchWith nested call).Yields s I fun _ _ => True := by
  unfold dispatchWith
  refine .get ?_
  cases hadm : s.admission call.context call.level with
  | refused failure => exact hs
  | filtered => exact ⟨hs, trivial⟩
  | admitted c level a => exact h c level a hadm

/-- What every step and every entry inside it keeps, a dispatch keeps. -/
theorem dispatchWith_keeps_of_nested (hI : Stable owned (fun _ => True) I)
    (hn : ∀ call, (nested call).Keeps I) (call : Call) : (dispatchWith nested call).Keeps I := by
  intro s hs
  refine dispatchWith_keeps hs fun c level a _ => Dispatch.deliver_keeps hI.toSteady ?_
  refine (Dispatch.entryFields_yields hI.toSteady hs ?_ level call).mono (fun _ h => h)
    fun h _ _ _ => ⟨hI.receptive a h, fun _ _ => trivial⟩
  intro p _ s₀ _ action _ s₁ call' hs₁ _ _
  exact hn call' s₁ hs₁

/-- What every step keeps, every dispatch keeps, with all that is dispatched inside it. -/
theorem dispatch_keeps (hI : Stable owned (fun _ => True) I) (depth : Nat) (call : Call) :
    (dispatch depth call).Keeps I := by
  -- What a producer sends is dispatched one level further down.
  induction depth generalizing call with
  | zero => exact .throw _
  | succ depth ih => exact dispatchWith_keeps_of_nested hI ih call

end ContextLog
