import ContextLog.Proofs.Conventions
import ContextLog.Proofs.Counting
/-!
# Entries that end their caller

An entry at the level `panic` gets through every threshold, so a caller that sends one never goes on: if the
entry has an appender, a message and fields, then it is delivered and its message is raised, and else the stage
that failed says so (`Dispatch.Leaves`). An entry at the level `fatal` is held back by the threshold `panic` alone.
`panic_never_returns` says both for every way to send an entry.
-/

namespace ContextLog

open Session

variable {s s' : Store} {call : Call} {c : ContextRef} {l : Level} {a : AppenderRef} {m : Method}
  {context : Option ContextRef} {x : Session Unit} {nested : Call → Session Unit} {depth : Nat}

/-! ## Ways to send an entry -/

/-- A session sends an entry through a context at the level of a method, as a dispatch of `call`: by the function of
the level or by the one that takes it, by a logger in any of its three spellings, or by a builder with whatever it
has collected. -/
inductive Method.Sends (m : Method) (context : Option ContextRef) : Call → Session Unit → Prop
  | function (args : List Value) : m.Sends context { context, level := .level m.level, args } (emit m context args)
  | leveled {level : Value} (h : level.SameKey (.level m.level)) (args : List Value) :
    m.Sends context { context, level := .level m.level, args } (log context level args)
  | bound (args : List Value) :
    m.Sends context { context, level := .level m.level, args } ((Logger.mk context).print m args)
  | template (first : Value) (rest : List Value) :
    m.Sends context { context, level := .level m.level, args := first :: rest }
      ((Logger.mk context).printf m (first :: rest))
  | line (args : List Value) :
    m.Sends context { context, level := .level m.level, args, templated := false } ((Logger.mk context).println m args)
  | builder (e : Entry) (args : List Value) :
    m.Sends context { context, level := .level m.level, fields := .live e.fields, args } (e.emit m context args)
  | builderLeveled (e : Entry) {level : Value} (h : level.SameKey (.level m.level)) (args : List Value) :
    m.Sends context { context, level := .level m.level, fields := .live e.fields, args } (e.log context level args)

namespace Method.Sends

/-- All of them are one dispatch. -/
theorem eq_send (h : m.Sends context call x) : x = send call := by
  cases h with
  | leveled hlevel args => exact log_eq_emit hlevel context args
  | builderLeveled e hlevel args => exact e.log_eq_emit hlevel context args
  | _ => rfl

theorem context_eq (h : m.Sends context call x) : call.context = context := by cases h <;> rfl

theorem level_eq (h : m.Sends context call x) : call.level = .level m.level := by cases h <;> rfl

/-- What goes with the entry is nothing or a mapping. -/
theorem isRegular (h : m.Sends context call x) (s : Store) : (s.supplied call.fields).IsRegular := by
  cases h <;> trivial

end Method.Sends

/-! ## Where a dispatch fails -/

/-- Two mappings can be made one. -/
theorem mergeHandles_total {explicit produced : Handle} (he : explicit.IsMapping)
    (hp : produced = .nothing ∨ produced.IsMapping) (s : Store) :
    ∃ merged s', mergeHandles explicit produced s = .ok merged s' := by
  obtain ⟨f, hf⟩ := he s
  have hmerge : ∃ side merged, (s.supplied explicit).merge (s.supplied produced) = .ok (side, merged) := by
    rw [hf]
    unfold Supplied.merge
    rcases hp with rfl | hp
    · exact ⟨_, _, rfl⟩
    · obtain ⟨g, hg⟩ := hp s
      rw [hg]
      split
      · exact ⟨_, _, rfl⟩
      · split
        · exact ⟨_, _, rfl⟩
        · exact ⟨_, _, rfl⟩
  obtain ⟨side, merged, hmerge⟩ := hmerge
  unfold mergeHandles
  rw [run_bind_ok run_get, hmerge]
  cases side with
  | explicit => exact ⟨_, _, rfl⟩
  | produced => exact ⟨_, _, rfl⟩
  | new => cases merged <;> exact ⟨_, _, rfl⟩

namespace Dispatch

/-- Nothing and every mapping can be handed to a source. -/
theorem explicitFields_total (source : Source) {fields : Handle} (hr : (s.supplied fields).IsRegular) :
    ∃ explicit s', explicitFields source fields s = .ok explicit s' := by
  unfold explicitFields
  split
  · cases hcopy : (s.supplied fields).copyIfPresent with
    | error f => simpa [hcopy, Except.isOk, Except.toBool] using Supplied.isOk_copyIfPresent hr
    | ok f =>
      unfold newCopy
      simp only [bind_assoc]
      rw [run_bind_ok run_get, hcopy]
      exact ⟨_, _, rfl⟩
  · rw [run_bind_ok run_get]
    split <;> exact ⟨_, _, rfl⟩

/-- The scope that the source of an entry's context is called with. -/
def scopeOf (c : ContextRef) (l : Level) (call : Call) (explicit : Handle) : Scope :=
  { context := some c, level := .level l, fields := explicit, args := call.args }

/-- Of the steps to the fields of an entry only its source can fail. -/
theorem entryFields_error {f : Failure} (hr : (s.supplied call.fields).IsRegular)
    (hx : entryFields nested c l call s = .error f s') :
    ∃ explicit s₀, explicitFields (s.sourceOf c) call.fields s = .ok explicit s₀ ∧
      resolveSource nested (s.sourceOf c) (scopeOf c l call explicit) s₀ = .error f s' := by
  obtain ⟨explicit, s₀, he⟩ := explicitFields_total (s.sourceOf c) hr
  refine ⟨explicit, s₀, he, ?_⟩
  have hm := explicitFields_isMapping hr he
  unfold entryFields resolveFields at hx
  rw [run_bind_ok run_get, run_bind_ok he] at hx
  cases hsource : (s.sourceOf c).isAbsent with
  | true =>
    rw [hsource] at hx
    cases hx
  | false =>
    rw [hsource] at hx
    rcases bind_error hx with hx | ⟨produced, s₁, hp, hx⟩
    · exact hx
    · -- What the source gives can be merged.
      obtain ⟨merged, s₂, hmerged⟩ := mergeHandles_total hm (resolveSource_gives _ hm _ _ _ hp) s₁
      rw [run_bind_ok hmerged] at hx
      cases hx

/-- How the dispatch of an entry that passed its threshold fails from a store, by the stage that fails, and what it
leaves. -/
inductive Leaves (depth : Nat) (s : Store) (call : Call) (c : ContextRef) (l : Level) : Failure → Store → Prop
  /-- There is no appender, and nothing has been done. -/
  | unaddressed (ha : s.appenderOf s.defaults c = none) : Leaves depth s call c l .missingAppender s
  /-- The source fails on the fields that it is handed. -/
  | unsourced {f : Failure} {s₀ s' : Store} {explicit : Handle}
      (he : explicitFields (s.sourceOf c) call.fields s = .ok explicit s₀)
      (hf : resolveSource (dispatch depth) (s.sourceOf c) (scopeOf c l call explicit) s₀ = .error f s') :
    Leaves depth s call c l f s'
  /-- The arguments have no message. -/
  | unformatted {f : Failure} {s₁ : Store} {h : Handle} (hx : entryFields (dispatch depth) c l call s = .ok h s₁)
      (hm : (formatMessage call.args call.templated).2 = .error f) :
    Leaves depth s call c l f { s₁ with journal := s₁.journal ++ call.mismatches }
  /-- The appender is called and fails. -/
  | undelivered {f : Failure} {a : AppenderRef} {s₁ s₂ s' : Store} {h : Handle} {msg : Text}
      (ha : s.appenderOf s.defaults c = some a) (hx : entryFields (dispatch depth) c l call s = .ok h s₁)
      (hm : (formatMessage call.args call.templated).2 = .ok msg)
      (hn : s₁.Notes ⟨a, some c, .level l, s₁.supplied h, .text msg⟩ s₂)
      (hf : receive a (some c) (.level l) h (.text msg) s₂ = .error f s') :
    Leaves depth s call c l f s'
  /-- The appender is called and returns, and then the entry ends as its level says. -/
  | delivered {f : Failure} {a : AppenderRef} {s₁ s₂ s' : Store} {h : Handle} {msg : Text}
      (ha : s.appenderOf s.defaults c = some a) (hx : entryFields (dispatch depth) c l call s = .ok h s₁)
      (hm : (formatMessage call.args call.templated).2 = .ok msg)
      (hn : s₁.Notes ⟨a, some c, .level l, s₁.supplied h, .text msg⟩ s₂)
      (hr : receive a (some c) (.level l) h (.text msg) s₂ = .ok () s') (hl : l.ending msg = .error f) :
    Leaves depth s call c l f s'

/-- At a level that ends in a failure a delivery fails, whatever happens to the entry. -/
theorem deliver_leaves (ha : s.appenderOf s.defaults c = some a) (hr : (s.supplied call.fields).IsRegular)
    (hend : ∀ msg s₃, (s.onWorker = false → s₃.onWorker = false) →
      ∃ f, l.ending msg = .error f ∧ followUp l msg s₃ = .error f s₃) :
    ∃ f s', deliver (dispatch depth) c l a call s = .error f s' ∧ Leaves depth s call c l f s' := by
  cases hx : entryFields (dispatch depth) c l call s with
  | error f s₁ =>
    obtain ⟨explicit, s₀, he, hf⟩ := entryFields_error hr hx
    exact ⟨f, s₁, deliver_of_fields_error hx, .unsourced he hf⟩
  | ok h s₁ =>
    cases hm : (formatMessage call.args call.templated).2 with
    | error f => exact ⟨f, _, deliver_of_mismatch hx hm, .unformatted hx hm⟩
    | ok msg =>
      obtain ⟨s₂, hn, hd⟩ := deliver_of_message (a := a) hx (entryFields_isMapping hr hx) hm
      cases hrec : receive a (some c) (.level l) h (.text msg) s₂ with
      | error f s₃ => exact ⟨f, s₃, hd.trans (run_bind_error hrec), .undelivered ha hx hm hn hrec⟩
      | ok u s₃ =>
        -- Neither the source nor the appender moves the caller to another thread.
        have hmain : s.onWorker = false → s₃.onWorker = false := by
          intro hw
          have hw₁ := entryFields_main hw hx
          have hw₂ : s₂.onWorker = false := by
            obtain ⟨rs, rfl⟩ := hn
            exact hw₁
          exact receive_main hw₂ hrec
        obtain ⟨f, hl, hfollow⟩ := hend msg s₃ hmain
        exact ⟨f, s₃, (hd.trans (run_bind_ok hrec)).trans hfollow, .delivered ha hx hm hn hrec hl⟩

end Dispatch

/-! ## The law -/

/-- A dispatch that passes its threshold and whose level ends in a failure fails. -/
theorem dispatch_leaves (hc : call.context.or s.defaults.context = some c) (hr : (s.context c).IsRegular)
    (hl : call.level = .level l) (ht : l ≤ s.threshold c) (hf : (s.supplied call.fields).IsRegular)
    (hend : ∀ msg s₃, (s.onWorker = false → s₃.onWorker = false) →
      ∃ f, l.ending msg = .error f ∧ Dispatch.followUp l msg s₃ = .error f s₃) :
    ∃ f s', dispatch (depth + 1) call s = .error f s' ∧ Dispatch.Leaves depth s call c l f s' := by
  have hlevel : call.level.SameKey (.level l) := by rw [hl]; rfl
  have hadm := Store.admission_of_level hc hr hlevel
  rw [if_neg (Level.not_lt.2 ht)] at hadm
  have hrun : dispatch (depth + 1) call s = _ := dispatchWith_run (dispatch depth) call s
  rw [hadm] at hrun
  cases ha : s.appenderOf s.defaults c with
  | none =>
    rw [ha] at hrun
    exact ⟨.missingAppender, s, hrun, .unaddressed ha⟩
  | some a =>
    rw [ha] at hrun
    rw [hrun]
    exact Dispatch.deliver_leaves ha hf hend

/-- A dispatch below its threshold returns at once. -/
theorem dispatch_filtered (hc : call.context.or s.defaults.context = some c) (hr : (s.context c).IsRegular)
    (hl : call.level = .level l) (ht : s.threshold c < l) : dispatch (depth + 1) call s = .ok () s := by
  have hlevel : call.level.SameKey (.level l) := by rw [hl]; rfl
  have hadm := Store.admission_of_level hc hr hlevel
  rw [if_pos ht] at hadm
  exact endsAtOnce_of_filtered hc hadm depth s call ⟨rfl, rfl, rfl⟩ rfl rfl

theorem Level.lt_fatal_iff : l < .fatal ↔ l = .panic := by
  cases l <;> decide

/-- Through a context whose threshold is a level or unset, whoever sends an entry at the level `panic` does not go
on: the message is raised once the entry has been delivered, or the stage that failed raises. On the main thread
whoever sends one at the level `fatal` goes on exactly if the threshold is `panic`. -/
theorem panic_never_returns (hc : context.or s.defaults.context = some c) (hr : (s.context c).IsRegular) :
    (∀ call x, Method.panic.Sends context call x →
      ∃ f s', x s = .error f s' ∧ Dispatch.Leaves 199 s call c .panic f s') ∧
    (s.onWorker = false → ∀ call x, Method.fatal.Sends context call x →
      ((∃ s', x s = .ok () s') ↔ s.threshold c = .panic)) := by
  refine ⟨fun call x hx => ?_, fun hw call x hx => ⟨?_, fun ht => ?_⟩⟩
  · rw [hx.eq_send]
    refine dispatch_leaves (by rw [hx.context_eq, hc]) hr hx.level_eq (Nat.zero_le _) (hx.isRegular s) ?_
    exact fun msg s₃ _ => ⟨.panicked msg, rfl, rfl⟩
  · rintro ⟨s', hreturns⟩
    by_contra hne
    -- The entry passes, so its dispatch fails.
    have hpasses : Level.fatal ≤ s.threshold c := Level.not_lt.1 fun hlt => hne (Level.lt_fatal_iff.1 hlt)
    have hend : ∀ msg s₃, (s.onWorker = false → s₃.onWorker = false) →
        ∃ f, Level.ending .fatal msg = .error f ∧ Dispatch.followUp .fatal msg s₃ = .error f s₃ :=
      fun msg s₃ hmain => ⟨.exited, rfl, Dispatch.followUp_main (hmain hw)⟩
    obtain ⟨f, s'', hfails, -⟩ : ∃ f s'', send call s = .error f s'' ∧ Dispatch.Leaves 199 s call c .fatal f s'' :=
      dispatch_leaves (by rw [hx.context_eq, hc]) hr hx.level_eq hpasses (hx.isRegular s) hend
    rw [hx.eq_send] at hreturns
    cases hreturns.symm.trans hfails
  · rw [hx.eq_send]
    exact ⟨s, dispatch_filtered (by rw [hx.context_eq, hc]) hr hx.level_eq (Level.lt_fatal_iff.2 ht)⟩

/-- A store with a context that lets nothing through but the level `panic`, whose source sends an entry at the level
`fatal` on its way. -/
def panicOnly : Store where
  contexts := [{}, { level := .level .panic, source := .lazy (.producer ⟨0⟩) }]
  producers := [{
    signature := none
    program := [.dispatch (.context ⟨1⟩) (.level .fatal) .nothing [], .output (.str "disk") (.int 3)]
    typeName := "function"
    representation := "<function>" }]
  appenders := [.recording [] []]
  defaults := { appender := some ⟨0⟩ }

theorem panic_never_returns_panicOnly :
    (∃ f s', (Logger.mk (some ⟨1⟩)).println .panic [.str "%d full", .int 9] panicOnly = .error f s' ∧
      Dispatch.Leaves 199 panicOnly
        { context := some ⟨1⟩, level := .level .panic, args := [.str "%d full", .int 9], templated := false }
        ⟨1⟩ .panic f s') ∧
    ∃ s', log (some ⟨1⟩) (.bool true) [] panicOnly = .ok () s' := by
  have h := @panic_never_returns panicOnly ⟨1⟩ (some ⟨1⟩) rfl (.inr ⟨.panic, rfl⟩)
  exact ⟨h.1 _ _ (.line [.str "%d full", .int 9]), (h.2 rfl _ _ (.leveled (by decide) [])).2 rfl⟩

end ContextLog
