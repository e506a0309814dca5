import ContextLog.Proofs.Nesting
/-!
# Workers

On a thread other than the main one a failure of the caller would go unnoticed, so an entry at the level `fatal` does
not fail there: once its appender has returned, the standard streams are flushed and the process ends. A stream that
is missing is left out. But a stream that cannot be flushed raises an error in the caller instead, and the process
goes on (`fatal_onWorker`).
-/

namespace ContextLog

open Session

variable {nested : Call → Session Unit} {s s' : Store} {call : Call} {c : ContextRef} {l : Level} {a : AppenderRef}
  {msg : Text}

/-! ## Flushes -/

/-- What goes wrong when the standard streams are flushed, the standard output before the standard error. -/
def Store.flushFailure (s : Store) : Option Failure :=
  (s.stdout.bind (·.flushFailure)).or (s.stderr.bind (·.flushFailure))

theorem Store.flushFailure_eq_none_iff : s.flushFailure = none ↔
    ∀ stream, s.stdout = some stream ∨ s.stderr = some stream → stream.flushFailure = none := by
  rw [flushFailure, Option.or_eq_none_iff, Option.bind_eq_none_iff, Option.bind_eq_none_iff]
  constructor
  · rintro ⟨hout, herr⟩ stream (h | h)
    · exact hout stream h
    · exact herr stream h
  · exact fun h => ⟨fun stream hs => h stream (.inl hs), fun stream hs => h stream (.inr hs)⟩

namespace Dispatch

theorem flush_run (stream : Option Channel) (s : Store) : flush stream s =
    match stream.bind (·.flushFailure) with
    | some f => .error f s
    | none => .ok () s := by
  unfold flush
  cases stream with
  | none => rfl
  | some stream =>
    obtain ⟨text, failure⟩ := stream
    cases failure with
    | none => rfl
    | some f => rfl

/-- A worker ends the process unless one of the flushes fails. -/
theorem endProcess_onWorker (hw : s.onWorker = true) : endProcess s = .error (s.flushFailure.getD .ended) s := by
  have hout := flush_run s.stdout s
  have herr := flush_run s.stderr s
  unfold endProcess Store.flushFailure
  rw [run_bind_ok run_get, hw, if_pos rfl]
  cases ho : s.stdout.bind (·.flushFailure) with
  | some f =>
    rw [ho] at hout
    exact run_bind_error hout
  | none =>
    rw [ho] at hout
    rw [run_seq_ok hout]
    cases he : s.stderr.bind (·.flushFailure) with
    | some f =>
      rw [he] at herr
      exact run_bind_error herr
    | none =>
      rw [he] at herr
      exact run_seq_ok herr

/-! ## Appended entries -/

/-- An entry has got its fields and its message, and its appender has returned. -/
structure Appended (nested : Call → Session Unit) (s : Store) (call : Call) (c : ContextRef) (l : Level)
    (a : AppenderRef) (msg : Text) (s' : Store) : Prop where
  formatted : (formatMessage call.args call.templated).2 = .ok msg
  received : ∃ h s₁ records, entryFields nested c l call s = .ok h s₁ ∧
    s₁.recordOf s.defaults.debug ⟨a, some c, .level l, s₁.supplied h, .text msg⟩ = .ok records ∧
    receive a (some c) (.level l) h (.text msg)
      (s₁.noted (call.mismatches ++ records) ⟨a, some c, .level l, s₁.supplied h, .text msg⟩) = .ok () s'

theorem Appended.deliver_run (h : Appended nested s call c l a msg s') :
    deliver nested c l a call s = followUp l msg s' := by
  obtain ⟨fields, s₁, records, hx, hrecords, hr⟩ := h.received
  rw [Dispatch.deliver_run rfl hx h.formatted, hrecords]
  exact run_seq_ok hr

/-- An entry fails on its way to its appender, or it is appended and then ends as its level says. -/
theorem deliver_cases (nested : Call → Session Unit) (c : ContextRef) (l : Level) (a : AppenderRef) (call : Call)
    (s : Store) : (∃ f s', deliver nested c l a call s = .error f s') ∨
      ∃ msg s', Appended nested s call c l a msg s' := by
  cases hx : entryFields nested c l call s with
  | error f s₁ => exact .inl ⟨f, s₁, deliver_of_fields_error hx⟩
  | ok h s₁ =>
    cases hm : (formatMessage call.args call.templated).2 with
    | error f => exact .inl ⟨f, _, deliver_of_mismatch hx hm⟩
    | ok msg =>
      have hd := deliver_run (a := a) rfl hx hm
      cases hrecords : s₁.recordOf s.defaults.debug ⟨a, some c, .level l, s₁.supplied h, .text msg⟩ with
      | error f =>
        rw [hrecords] at hd
        exact .inl ⟨f, _, hd⟩
      | ok records =>
        rw [hrecords] at hd
        cases hr : receive a (some c) (.level l) h (.text msg)
            (s₁.noted (call.mismatches ++ records) ⟨a, some c, .level l, s₁.supplied h, .text msg⟩) with
        | error f s₃ => exact .inl ⟨f, s₃, hd.trans (run_bind_error hr)⟩
        | ok _ s₃ => exact .inr ⟨msg, s₃, hm, h, s₁, records, hx, hrecords, hr⟩

/-- The last call of an appender that has been noted is that of the entry. -/
theorem Appended.delivered (h : Appended nested s call c l a msg s') :
    ∃ earlier fields, s'.deliveries = earlier ++ [⟨a, some c, .level l, fields, .text msg⟩] := by
  obtain ⟨fields, s₁, records, -, -, hr⟩ := h.received
  exact ⟨_, _, ((receive_silent a (some c) (.level l) fields (.text msg) _ _ rfl).ok hr).1⟩

end Dispatch

/-! ## The law -/

variable {caught : Tolerance} {depth : Nat}

/-- An entry that is appended on a worker leaves its caller there. -/
theorem Dispatch.Appended.onWorker (hadm : s.admission call.context call.level = .admitted c l a)
    (h : Appended (sentWithin caught depth) s call c l a msg s') (hw : s.onWorker = true) : s'.onWorker = true := by
  have hrun : dispatchWithin caught (depth + 1) call s = followUp l msg s' := by
    rw [dispatchWithin_succ, dispatchWith_run, hadm]
    exact h.deliver_run
  have hkeeps : ((dispatchWithin caught (depth + 1) call).leaves s).onWorker = true :=
    (dispatchWithin_keeps (Store.onWorker_stable true) (depth + 1) call).leaves hw
  rwa [leaves_congr hrun, followUp_leaves] at hkeeps

/-- How an entry at the level `fatal` ends that is sent on a thread other than the main one and passes its
threshold. -/
structure EndsOnWorker (caught : Tolerance) (depth : Nat) (s : Store) (call : Call) (c : ContextRef)
    (a : AppenderRef) : Prop where
  /-- Whatever happens to the entry, its caller does not go on. -/
  fails : ∃ f s', dispatchWithin caught (depth + 1) call s = .error f s'
  /-- Once it has been appended, the last call of an appender is that of the entry. -/
  delivered : ∀ msg s', Dispatch.Appended (sentWithin caught depth) s call c .fatal a msg s' →
    ∃ earlier fields, s'.deliveries = earlier ++ [⟨a, some c, .level .fatal, fields, .text msg⟩]
  /-- If the standard streams that are there can be flushed, then the process ends with nothing done in between. -/
  ended : ∀ msg s', Dispatch.Appended (sentWithin caught depth) s call c .fatal a msg s' →
    (∀ stream, s'.stdout = some stream ∨ s'.stderr = some stream → stream.flushFailure = none) →
    dispatchWithin caught (depth + 1) call s = .error .ended s'
  /-- If not, then the first flush that fails raises its error in the caller. -/
  unflushed : ∀ msg s' f, Dispatch.Appended (sentWithin caught depth) s call c .fatal a msg s' →
    s'.flushFailure = some f → dispatchWithin caught (depth + 1) call s = .error f s'

/-- On a thread other than the main one every entry at the level `fatal` that is let through and that its appender
takes ends the process, unless one of the standard streams cannot be flushed. -/
theorem fatal_onWorker (hadm : s.admission call.context call.level = .admitted c .fatal a) (hw : s.onWorker = true)
    (caught : Tolerance) (depth : Nat) : EndsOnWorker caught depth s call c a := by
  have hrun : dispatchWithin caught (depth + 1) call s =
      Dispatch.deliver (sentWithin caught depth) c .fatal a call s := by
    rw [dispatchWithin_succ, dispatchWith_run, hadm]
  have happended : ∀ msg s', Dispatch.Appended (sentWithin caught depth) s call c .fatal a msg s' →
      dispatchWithin caught (depth + 1) call s = .error (s'.flushFailure.getD .ended) s' :=
    fun msg s' h => (hrun.trans h.deliver_run).trans (Dispatch.endProcess_onWorker (h.onWorker hadm hw))
  refine ⟨?_, fun msg s' h => h.delivered, fun msg s' h hflush => ?_, fun msg s' f h hf => ?_⟩
  · rcases Dispatch.deliver_cases (sentWithin caught depth) c .fatal a call s with ⟨f, s', hd⟩ | ⟨msg, s', h⟩
    · exact ⟨f, s', hrun.trans hd⟩
    · exact ⟨_, s', happended msg s' h⟩
  · have h' := happended msg s' h
    rwa [Store.flushFailure_eq_none_iff.2 hflush] at h'
  · have h' := happended msg s' h
    rwa [hf] at h'

/-- A store on a worker with no standard error, with an appender that writes to the standard output and with one
that keeps entries. -/
def workerStore : Store where
  contexts := [{}, { appender := some ⟨0⟩ }, { appender := some ⟨1⟩ }]
  appenders := [.console, .recording [] []]
  stderr := none
  onWorker := true

theorem fatal_onWorker_workerStore :
    EndsOnWorker .strict 1 workerStore { context := some ⟨1⟩, level := .int 1, args := [.str "bye"] } ⟨1⟩ ⟨0⟩ ∧
    ((dispatchWithin .strict 2 { context := some ⟨1⟩, level := .int 1, args := [.str "bye"] }).leaves
      workerStore).stdout.map (·.text) = some "[FATAL] bye\n" :=
  ⟨fatal_onWorker rfl rfl .strict 1, rfl⟩

/-- The same store, but its standard output has been closed. -/
def closedOutput : Store :=
  { workerStore with
    stdout := some { flushFailure := some (.raised (.error .value 0 [.str "I/O operation on closed file."] [])) } }

/-- The appender has kept the entry, but the process does not end: the error of the flush is raised in the caller. -/
theorem fatal_outlived :
    let call : Call := { context := some ⟨2⟩, level := .level .fatal, args := [.str "bye"] }
    closedOutput.onWorker = true ∧ closedOutput.admission call.context call.level = .admitted ⟨2⟩ .fatal ⟨1⟩ ∧
      ∃ s', Dispatch.Appended (sentWithin .strict 1) closedOutput call ⟨2⟩ .fatal ⟨1⟩ (.ofString "bye") s' ∧
        (s'.appender ⟨1⟩).records = [⟨.level .fatal, .empty, .str "bye"⟩] ∧
        dispatchWithin .strict 2 call closedOutput =
          .error (.raised (.error .value 0 [.str "I/O operation on closed file."] [])) s' :=
  ⟨rfl, rfl, _, ⟨rfl, .vacant, closedOutput, [], rfl, rfl, rfl⟩, rfl, rfl⟩

end ContextLog
