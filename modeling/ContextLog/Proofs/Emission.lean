import ContextLog.Proofs.Admission
import ContextLog.Proofs.Frame
/-!
# The stages of an admitted entry

An admitted entry passes its stages in one order: its fields, its message, its appender, and what
follows at its level. Here is what each stage gives and leaves, one lemma for each way out of it: the
fields are a mapping, the message may fail behind its report, the appender calls no other one, and what
follows depends on the level and the thread. `deliver_run` puts them together.
-/

namespace ContextLog

/-! ## Fields that are a mapping -/

/-- Nothing, or a mapping. -/
def Supplied.IsRegular : Supplied → Prop
  | .other _ => False
  | _ => True

/-- Regular fields that are not empty are a mapping, and stay one. -/
theorem Store.isMapping_of_isPresent {s : Store} {h : Handle} (hr : (s.supplied h).IsRegular)
    (hp : s.isPresent h = true) : h.IsMapping := by
  cases h with
  | nothing => cases hp
  | live m => exact Handle.isMapping_live m
  | vacant => exact Handle.isMapping_vacant
  | other v =>
    have hs : ∀ s : Store, s.supplied (.other v) = Supplied.ofValue v := fun _ => rfl
    rw [Store.isPresent, hs] at hp
    rw [hs] at hr
    intro s'
    rw [hs]
    cases hv : Supplied.ofValue v with
    | nothing => rw [hv] at hp; cases hp
    | fields f => exact ⟨f, rfl⟩
    | other w => rw [hv] at hr; exact hr.elim

variable {nested : Call → Session Unit} {s : Store}

namespace Produce

/-- A producer gives nothing, the fields that it was given, or a mapping of its own. -/
theorem run_gives (p : ProducerRef) (scope : Scope) (output : Fields) (program : List Action) :
    (run nested p scope output program).Gives fun h =>
      h = .nothing ∨ h = scope.fields ∨ ∃ m, h = .live m := by
  induction program generalizing output with
  | nil => exact .seq fun m => .pure (.inr (.inr ⟨m, rfl⟩))
  | cons action rest ih =>
    cases action with
    | giveNothing => exact .pure (.inl rfl)
    | giveFields => exact .pure (.inr (.inl rfl))
    | _ => exact .seq fun output => ih output

theorem invoke_gives (of : Source) (count : Nat) (scope : Scope) :
    (invoke nested of count scope).Gives fun h =>
      h = .nothing ∨ h = scope.fields ∨ ∃ m, h = .live m := by
  have hcall : ∀ p, (call nested p scope).Gives fun h =>
      h = .nothing ∨ h = scope.fields ∨ ∃ m, h = .live m := fun p =>
    .seq fun producer => .seq fun _ => run_gives p scope .empty _
  cases of with
  | producer p =>
    refine .seq fun s => ?_
    dsimp only
    cases (s.producer p).parameters with
    | none => exact hcall p
    | some signature =>
      dsimp only
      split
      · exact hcall p
      · exact .throw _
  | _ => exact .seq fun _ => .throw _

end Produce

/-- A source contributes nothing or a mapping. -/
theorem resolveSource_gives (source : Source) {scope : Scope} (hf : scope.fields.IsMapping) :
    (resolveSource nested source scope).Gives fun h => h = .nothing ∨ h.IsMapping := by
  have hinvoke : ∀ of count (scope' : Scope), scope'.fields = .nothing ∨ scope'.fields.IsMapping →
      (Produce.invoke nested of count scope').Gives fun h => h = .nothing ∨ h.IsMapping := by
    intro of count scope' hf' s h s' hr
    rcases Produce.invoke_gives of count scope' s h s' hr with rfl | rfl | ⟨m, rfl⟩
    · exact .inl rfl
    · exact hf'
    · exact .inr (Handle.isMapping_live m)
  cases source with
  | static m => exact .pure (.inr (Handle.isMapping_live m))
  | lazy of => exact hinvoke of 0 {} (.inl rfl)
  | contextual of => exact hinvoke of 4 scope (.inr hf)
  | _ => exact .seq fun _ => .throw _

theorem mergeHandles_gives {explicit produced : Handle} (he : explicit.IsMapping)
    (hp : produced = .nothing ∨ produced.IsMapping) :
    (mergeHandles explicit produced).Gives fun r => r.2.IsMapping := by
  intro s r s' hr
  rcases mergeHandles_cases explicit produced s with ⟨-, h⟩ | ⟨h', -, h⟩ | ⟨_, _, -, -, -, h⟩ | ⟨f, h⟩ <;>
    rw [h] at hr <;> cases hr
  · exact he
  · rcases hp with rfl | hp
    · cases h'
    · exact hp
  · exact Handle.isMapping_live _

namespace Dispatch

/-- What a source works on is a mapping. -/
theorem explicitFields_isMapping {source : Source} {fields h : Handle} {s' : Store}
    (hr : (s.supplied fields).IsRegular) (hx : explicitFields source fields s = .ok h s') :
    h.IsMapping := by
  have hI : Store.Steady (fun _ => True) (fun _ => True) (fun _ => True) :=
    ⟨fun _ _ => trivial, fun _ => trivial⟩
  have hh := ((explicitFields_yields hI.calm trivial source fields).ok hx).2
  split at hh
  · obtain ⟨m, rfl, -⟩ := hh
    exact Handle.isMapping_live m
  · obtain ⟨-, rfl⟩ := hh
    split
    · exact Store.isMapping_of_isPresent hr ‹_›
    · exact Handle.isMapping_vacant

/-- The fields of an entry are a mapping. -/
theorem entryFields_isMapping {c : ContextRef} {level : Level} {call : Call}
    (hr : (s.supplied call.fields).IsRegular) {h : Handle} {s' : Store}
    (hx : entryFields nested c level call s = .ok h s') : h.IsMapping := by
  unfold entryFields at hx
  rw [Session.run_bind_ok Session.run_get] at hx
  obtain ⟨explicit, s₁, he, hx⟩ := Session.bind_ok hx
  have hm := explicitFields_isMapping hr he
  unfold resolveFields at hx
  cases ha : (s.sourceOf c).isAbsent with
  | true =>
    rw [ha] at hx
    cases hx
    exact hm
  | false =>
    rw [ha] at hx
    obtain ⟨produced, s₂, hp, hx⟩ := Session.bind_ok hx
    obtain ⟨r, s₃, hr, hx⟩ := Session.bind_ok hx
    cases hx
    exact mergeHandles_gives hm (resolveSource_gives _ hm _ _ _ hp) _ _ _ hr

end Dispatch

/-! ## The stages of a delivery -/

/-- The session calls no appender. -/
def Session.IsSilent {α : Type} (x : Session α) : Prop := ∀ log, x.Keeps (·.deliveries = log)

/-- What has been delivered stays the same by every step that delivers nothing. -/
theorem Store.deliveries_stable (log : List Delivery) :
    Stable (fun _ => True) (fun _ => False) (·.deliveries = log) where
  step h hstep := by
    cases hstep with
    | delivered d hd => exact hd.elim
    | _ => exact h
  fresh _ := trivial
  edits _ _ := .inr fun _ => trivial

/-- The thread stays the same by every step. -/
theorem Store.onWorker_stable (b : Bool) :
    Stable (fun _ => True) (fun _ => True) (·.onWorker = b) where
  step h hstep := by cases hstep <;> exact h
  fresh _ := trivial
  edits _ _ := .inr fun _ => trivial

/-- What an appender does with an entry calls no appender. -/
theorem receive_silent (r : AppenderRef) (ctx : Option ContextRef) (level : Value) (fields : Handle)
    (msg : Value) : (receive r ctx level fields msg).IsSilent := fun log =>
  receive_keeps ((Store.deliveries_stable log).receptive r fields) ctx level msg

theorem receive_main {r : AppenderRef} {ctx : Option ContextRef} {level : Value} {fields : Handle}
    {msg : Value} {s' : Store} (hw : s.onWorker = false)
    (h : receive r ctx level fields msg s = .ok () s') : s'.onWorker = false :=
  ((receive_keeps ((Store.onWorker_stable false).receptive r fields) ctx level msg s hw).ok h).1

/-- How a dispatch ends whose entry has been taken: at the level `fatal` with the end of the process,
at the level `panic` with the message that was delivered. -/
def Level.ending (l : Level) (msg : Text) : Except Failure Unit :=
  match l with
  | .fatal => .error .exited
  | .panic => .error (.panicked msg)
  | _ => .ok ()

/-- The reports on arguments that do not fit their template. -/
def Call.mismatches (call : Call) : List Report :=
  (formatMessage call.args call.templated).1.toList.map .mismatch

/-- The record of a delivery that is about to be made, if entries are traced. -/
def Store.recordOf (s : Store) (debug : Value) (d : Delivery) : Except Failure (List Report) :=
  if debug.isTrue then do
    return [.append (← Report.event (s.appender d.appender).typeName d.level d.fields d.msg)]
  else .ok []

theorem Store.recordOf_ok {debug : Value} {d : Delivery} {records : List Report}
    (h : s.recordOf debug d = .ok records) : match debug.isTrue with
      | true => ∃ event, Report.event (s.appender d.appender).typeName d.level d.fields d.msg = .ok event ∧
          records = [.append event]
      | false => records = [] := by
  unfold recordOf at h
  cases hdebug : debug.isTrue with
  | true =>
    rw [hdebug, if_pos rfl] at h
    cases he : Report.event (s.appender d.appender).typeName d.level d.fields d.msg with
    | ok event => rw [he] at h; cases h; exact ⟨event, rfl, rfl⟩
    | error f => rw [he] at h; cases h
  | false =>
    rw [hdebug, if_neg Bool.false_ne_true] at h
    cases h
    rfl

/-- The store once the call of an appender has been noted, with reports on it. -/
def Store.noted (s : Store) (rs : List Report) (d : Delivery) : Store :=
  { s with journal := s.journal ++ rs, deliveries := s.deliveries ++ [d] }

theorem Store.supplied_noted (s : Store) (rs : List Report) (d : Delivery) (h : Handle) :
    (s.noted rs d).supplied h = s.supplied h := by
  cases h <;> rfl

namespace Dispatch

theorem entryFields_main {depth : Nat} {c : ContextRef} {level : Level} {call : Call} {h : Handle}
    {s' : Store} (hw : s.onWorker = false)
    (hx : entryFields (dispatch depth) c level call s = .ok h s') : s'.onWorker = false := by
  have hI := Store.onWorker_stable false
  refine ((entryFields_yields hI.toSteady hw ?_ level call).ok hx).1
  intro p _ s₀ _ action _ s₁ sent hs₁ _ _
  exact dispatch_keeps hI depth sent s₁ hs₁

theorem followUp_main {level : Level} {msg : Text} (hw : s.onWorker = false) :
    followUp level msg s = match level.ending msg with
      | .ok () => .ok () s
      | .error f => .error f s := by
  unfold followUp
  cases level with
  | fatal =>
    show endProcess s = _
    unfold endProcess
    rw [Session.run_bind_ok Session.run_get, hw]
    rfl
  | _ => rfl

variable {c : ContextRef} {l : Level} {a : AppenderRef} {call : Call} {h : Handle} {s₁ : Store}

theorem supplied_journal (rs : List Report) :
    ({ s with journal := rs } : Store).supplied h = s.supplied h := by
  cases h <;> rfl

theorem deliver_of_fields_error {f : Failure} (hx : entryFields nested c l call s = .error f s₁) :
    deliver nested c l a call s = .error f s₁ := by
  unfold deliver
  rw [Session.run_bind_ok Session.run_get, Session.run_bind_error hx]

theorem message_run (s : Store) (call : Call) :
    message call.args call.templated s = Session.lift (formatMessage call.args call.templated).2
      { s with journal := s.journal ++ call.mismatches } := rfl

theorem deliver_of_mismatch {f : Failure} (hx : entryFields nested c l call s = .ok h s₁)
    (hm : (formatMessage call.args call.templated).2 = .error f) :
    deliver nested c l a call s = .error f { s₁ with journal := s₁.journal ++ call.mismatches } := by
  have hmsg := message_run s₁ call
  rw [hm, Session.run_lift_error] at hmsg
  unfold deliver
  rw [Session.run_bind_ok Session.run_get, Session.run_bind_ok hx, Session.run_bind_error hmsg]

theorem trace_run (msg : Value) (rs : List Report) :
    trace a (.level l) h msg { s with journal := rs } =
      match Report.event (s.appender a).typeName (.level l) (s.supplied h) msg with
      | .ok event => .ok () { s with journal := rs ++ [.append event] }
      | .error f => .error f { s with journal := rs } := by
  unfold trace
  rw [Session.run_bind_ok Session.run_get, supplied_journal]
  show (Session.lift (Report.event (s.appender a).typeName (.level l) (s.supplied h) msg) >>= _) _ = _
  cases Report.event (s.appender a).typeName (.level l) (s.supplied h) msg <;> rfl

theorem append_run (ctx : Option ContextRef) (level msg : Value) (rs : List Report) :
    append a ctx level h msg { s with journal := s.journal ++ rs } =
      receive a ctx level h msg (s.noted rs ⟨a, ctx, level, s.supplied h, msg⟩) := by
  unfold append
  rw [Session.run_bind_ok Session.run_get, supplied_journal]
  rfl

/-- Once there are fields and a message, nothing comes between them and the appender but the record of the
entry. -/
theorem deliver_run {msg : Text} {d : Delivery} (hd : d = ⟨a, some c, .level l, s₁.supplied h, .text msg⟩)
    (hx : entryFields nested c l call s = .ok h s₁)
    (hm : (formatMessage call.args call.templated).2 = .ok msg) :
    deliver nested c l a call s = match s₁.recordOf s.defaults.debug d with
      | .error f => .error f { s₁ with journal := s₁.journal ++ call.mismatches }
      | .ok records => (do receive a (some c) (.level l) h (.text msg); followUp l msg)
          (s₁.noted (call.mismatches ++ records) d) := by
  have hmsg := message_run s₁ call
  rw [hm, Session.run_lift_ok] at hmsg
  -- Whatever has been reported meanwhile, the appender is called with the same entry.
  have hlast : ∀ rs, (do append a (some c) (.level l) h (.text msg); followUp l msg)
      { s₁ with journal := s₁.journal ++ rs } =
        (do receive a (some c) (.level l) h (.text msg); followUp l msg) (s₁.noted rs d) := fun rs => by
    simp only [bind, EStateM.bind, append_run, hd]
  have htrace := trace_run (s := s₁) (a := a) (l := l) (h := h) (.text msg) (s₁.journal ++ call.mismatches)
  unfold deliver Store.recordOf
  rw [Session.run_bind_ok Session.run_get, Session.run_bind_ok hx, Session.run_bind_ok hmsg]
  cases s.defaults.debug.isTrue with
  | false =>
    rw [if_neg Bool.false_ne_true, if_neg Bool.false_ne_true]
    dsimp only
    rw [hlast, List.append_nil]
  | true =>
    rw [if_pos rfl, if_pos rfl, hd]
    dsimp only
    cases he : Report.event (s₁.appender a).typeName (.level l) (s₁.supplied h) (.text msg) with
    | ok event =>
      rw [he] at htrace
      rw [Session.run_seq_ok htrace, List.append_assoc, hlast, hd]
      rfl
    | error f =>
      rw [he] at htrace
      rw [Session.run_bind_error htrace]
      rfl

/-- An entry whose fields are a mapping can be recorded. -/
theorem recordOf_of_isMapping (hf : h.IsMapping) (debug : Value) (a : AppenderRef) (ctx : Option ContextRef)
    (l : Level) (msg : Value) :
    ∃ records, s.recordOf debug ⟨a, ctx, .level l, s.supplied h, msg⟩ = .ok records := by
  obtain ⟨f, hf⟩ := hf s
  unfold Store.recordOf Report.event
  split
  · rw [hf]
    cases hp : (Supplied.fields f).isPresent with
    | true => exact ⟨_, by simp [Supplied.copyIfPresent, hp]; rfl⟩
    | false => exact ⟨_, by simp [Supplied.copyIfPresent, hp]; rfl⟩
  · exact ⟨_, rfl⟩

end Dispatch

/-- A call of an appender is noted, and there may be reports on it; nothing else is done. -/
def Store.Notes (s : Store) (d : Delivery) (s' : Store) : Prop :=
  ∃ rs, s' = { s with journal := s.journal ++ rs, deliveries := s.deliveries ++ [d] }

/-- Once the fields are a mapping and there is a message, the appender is called. -/
theorem Dispatch.deliver_of_message {c : ContextRef} {l : Level} {a : AppenderRef} {call : Call} {h : Handle}
    {s₁ : Store} {msg : Text} (hx : entryFields nested c l call s = .ok h s₁) (hf : h.IsMapping)
    (hm : (formatMessage call.args call.templated).2 = .ok msg) :
    ∃ s₂, s₁.Notes ⟨a, some c, .level l, s₁.supplied h, .text msg⟩ s₂ ∧
      deliver nested c l a call s =
        (do receive a (some c) (.level l) h (.text msg); followUp l msg) s₂ := by
  obtain ⟨records, hr⟩ := recordOf_of_isMapping (s := s₁) hf s.defaults.debug a (some c) l (.text msg)
  refine ⟨_, ⟨call.mismatches ++ records, rfl⟩, ?_⟩
  rw [deliver_run rfl hx hm, hr]
  rfl

end ContextLog
