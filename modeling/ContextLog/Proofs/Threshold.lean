import Mathlib.Data.List.Basic
import ContextLog.Proofs.Emission
import ContextLog.Proofs.Writes
/-!
# The same entries at two thresholds

Through a context whose source runs no producer, what becomes of an entry can be told before any is
sent: its fields are its own ones with the fixed ones over them (`Store.plainFields`), and if its message
can be made it is recorded (`Store.plainRecord`). Nothing that an entry does changes this for a later one,
so a run records its entries one by one (`Store.after_recorded`). Two runs that differ only in their
threshold therefore differ only in the entries between the two thresholds (`records_of_thresholds`).
-/

namespace ContextLog

variable {s s' s'' : Store} {c : ContextRef} {r : AppenderRef} {nested : Call → Session Unit}

/-! ## What becomes of one entry -/

/-- The source of a context runs no producer: there is none, or it has fixed fields in the store. -/
def Store.IsPlain (s : Store) (c : ContextRef) : Prop :=
  s.sourceOf c = .value .none ∨ ∃ m, s.sourceOf c = .static m ∧ m.index < s.mappings.length

namespace Store

/-- The fields that a handle holds, or none. -/
def ownFields (s : Store) (h : Handle) : Fields :=
  match s.supplied h with
  | .fields f => f
  | _ => .empty

/-- The fields of an entry through a context that runs no producer: its own ones, with the fixed ones
of the context over them. -/
def plainFields (s : Store) (c : ContextRef) (own : Handle) : Fields :=
  match s.sourceOf c with
  | .static m => (s.ownFields own).overlay (s.mapping m)
  | _ => s.ownFields own

/-- What is recorded of a call, if its level is one and passes the threshold, and its message can be
made. -/
def plainRecord (s : Store) (c : ContextRef) (call : Call) : Option Record :=
  match Level.ofValue call.level, (formatMessage call.args call.templated).2 with
  | .ok l, .ok msg =>
    if s.threshold c < l then none else some ⟨.level l, s.plainFields c call.fields, .text msg⟩
  | _, _ => none

/-- How a call ends: a level that is none is refused, an entry below the threshold returns, a message
that cannot be made fails, and else the entry ends as its level says. -/
def plainOutcome (s : Store) (c : ContextRef) (call : Call) : Except Failure Unit :=
  match Level.ofValue call.level with
  | .error f => .error f
  | .ok l =>
    if s.threshold c < l then .ok ()
    else match (formatMessage call.args call.templated).2 with
      | .error f => .error f
      | .ok msg => (Dispatch.followUp l msg).outcome s

end Store

theorem overlay_of_isEmpty {f g : Fields} (hg : g.isEmpty) : f.overlay g = f := by
  have hentries : g.entries = [] := List.isEmpty_iff.1 hg
  rw [Fields.overlay, hentries]
  rfl

theorem empty_of_isEmpty {f : Fields} (hf : f.isEmpty) : f = .empty := Fields.ext (List.isEmpty_iff.1 hf)

/-- The second store has some more mappings, and is the first one otherwise. -/
def Store.Allots (s s' : Store) : Prop := ∃ ms, s' = { s with mappings := s.mappings ++ ms }

theorem Store.Allots.refl (s : Store) : s.Allots s := ⟨[], by rw [List.append_nil]⟩

/-- Two mappings become one, whichever side it is or whether it is made anew. -/
theorem mergeHandles_mappings {explicit produced : Handle} {f g : Fields}
    (he : s.supplied explicit = .fields f) (hp : s.supplied produced = .fields g) :
    ∃ side h s', mergeHandles explicit produced s = .ok (side, h) s' ∧ s.Allots s' ∧
      s'.supplied h = .fields (f.overlay g) := by
  unfold mergeHandles Supplied.merge
  rw [Session.run_bind_ok Session.run_get, he, hp]
  cases hg : g.isEmpty with
  | true =>
    refine ⟨.explicit, explicit, s, ?_, .refl s, by rw [he, overlay_of_isEmpty hg]⟩
    simp only [Supplied.isPresent, hg]
    rfl
  | false =>
    cases hf : f.isEmpty with
    | true =>
      refine ⟨.produced, produced, s, ?_, .refl s, by rw [hp, empty_of_isEmpty hf, Fields.empty_overlay]⟩
      simp only [Supplied.isPresent, hg, hf]
      rfl
    | false =>
      refine ⟨.new, .live ⟨s.mappings.length⟩, _, ?_, ⟨[f.overlay g], rfl⟩,
        congrArg Supplied.fields (Store.mapping_allotted s _)⟩
      simp only [Supplied.isPresent, hg, hf]
      rfl

namespace Dispatch

theorem explicitFields_plain {source : Source} (hs : source.isContextual = false) {own : Handle}
    (hr : (s.supplied own).IsRegular) :
    ∃ h, explicitFields source own s = .ok h s ∧ s.supplied h = .fields (s.ownFields own) := by
  unfold explicitFields
  rw [hs, if_neg Bool.false_ne_true, Session.run_bind_ok Session.run_get]
  unfold Store.ownFields
  cases hp : s.isPresent own with
  | true =>
    refine ⟨own, rfl, ?_⟩
    obtain ⟨f, hf⟩ := Store.isMapping_of_isPresent hr hp s
    rw [hf]
  | false =>
    refine ⟨.vacant, rfl, ?_⟩
    unfold Store.isPresent at hp
    cases hown : s.supplied own with
    | nothing => rfl
    | fields f =>
      rw [hown] at hp
      exact congrArg Supplied.fields (empty_of_isEmpty (by simpa [Supplied.isPresent] using hp)).symm
    | other v => rw [hown] at hr; exact hr.elim

/-- Without a producer nothing fails while the fields of an entry are made, and at most a mapping is
made for them. -/
theorem entryFields_plain (hp : s.IsPlain c) {l : Level} {call : Call}
    (hr : (s.supplied call.fields).IsRegular) :
    ∃ h s', entryFields nested c l call s = .ok h s' ∧ s.Allots s' ∧
      s'.supplied h = .fields (s.plainFields c call.fields) := by
  unfold entryFields Store.plainFields
  rw [Session.run_bind_ok Session.run_get]
  rcases hp with hsource | ⟨m, hsource, -⟩
  · rw [hsource]
    obtain ⟨h, hx, hh⟩ := explicitFields_plain (rfl : Source.isContextual (.value .none) = false) hr
    rw [Session.run_bind_ok hx]
    exact ⟨h, s, rfl, .refl s, hh⟩
  · rw [hsource]
    obtain ⟨h, hx, hh⟩ := explicitFields_plain (rfl : Source.isContextual (.static m) = false) hr
    obtain ⟨side, h', s', hm, hs', hh'⟩ := mergeHandles_mappings hh (rfl : s.supplied (.live m) = _)
    have hresolve : resolveSource nested (.static m)
        { context := some c, level := .level l, fields := h, args := call.args } s = .ok (.live m) s := rfl
    refine ⟨h', s', ?_, hs', hh'⟩
    rw [Session.run_bind_ok hx]
    show resolveFields nested (.static m) _ s = _
    unfold resolveFields
    rw [if_neg (by simp [Source.isAbsent]), Session.run_bind_ok hresolve, Session.run_bind_ok hm]
    rfl

end Dispatch

/-! ## What an entry does to the store -/

/-- The second store is the first one after an appender has recorded some entries: mappings have been
made and calls have been noted, and the appender keeps the entries behind those that it had. -/
def Store.Recorded (s : Store) (r : AppenderRef) (new : List Record) (s' : Store) : Prop :=
  (∃ ms journal deliveries appenders,
    s' = { s with mappings := s.mappings ++ ms, journal, deliveries, appenders }) ∧
  ∃ cs rs cs', s.appender r = .recording cs rs ∧ s'.appender r = .recording cs' (rs ++ new)

namespace Store

theorem Recorded.refl {cs : List (Option ContextRef)} {rs : List Record}
    (h : s.appender r = .recording cs rs) : s.Recorded r [] s :=
  ⟨⟨[], s.journal, s.deliveries, s.appenders, by rw [List.append_nil]⟩,
    cs, rs, cs, h, by rw [List.append_nil, h]⟩

/-- Reports and notes on the way do not matter. -/
theorem Allots.recorded {cs : List (Option ContextRef)} {rs : List Record} (h : s.Allots s')
    (hr : s.appender r = .recording cs rs) (journal : List Report) (deliveries : List Delivery) :
    s.Recorded r [] { s' with journal, deliveries } := by
  obtain ⟨ms, rfl⟩ := h
  exact ⟨⟨ms, journal, deliveries, s.appenders, rfl⟩, cs, rs, cs, hr, by rw [List.append_nil]; exact hr⟩

theorem Recorded.trans {new new' : List Record} (h : s.Recorded r new s') (h' : s'.Recorded r new' s'') :
    s.Recorded r (new ++ new') s'' := by
  obtain ⟨⟨ms, j, ds, as, rfl⟩, cs, rs, cs', hr, hr'⟩ := h
  obtain ⟨⟨ms', j', ds', as', rfl⟩, cs₁, rs₁, cs'', hr₁, hr''⟩ := h'
  cases hr'.symm.trans hr₁
  refine ⟨⟨ms ++ ms', j', ds', as', by simp only [List.append_assoc]⟩, cs, rs, cs'', hr, ?_⟩
  rw [hr'', List.append_assoc]

end Store

/-- A recording appender takes every mapping. -/
theorem receive_recording {cs : List (Option ContextRef)} {rs : List Record} {h : Handle} {g : Fields}
    (hr : s.appender r = .recording cs rs) (hg : s.supplied h = .fields g) (ctx : Option ContextRef)
    (level msg : Value) :
    ∃ s', receive r ctx level h msg s = .ok () s' ∧ s.Recorded r [⟨level, g, msg⟩] s' := by
  have hrun : receive r ctx level h msg s = keepRecord .recording r ctx level h msg s := by
    unfold receive
    rw [Session.run_bind_ok Session.run_get, hr]
  rw [keepRecord_run, hr, hg] at hrun
  refine ⟨_, hrun, ⟨[], s.journal, s.deliveries, _, by rw [List.append_nil]⟩, cs, rs, cs ++ [ctx], hr, ?_⟩
  exact appender_received (by rw [hr]; nofun) _

/-- What follows a delivery depends on the thread and on the standard streams alone. -/
theorem followUp_outcome (hw : s'.onWorker = s.onWorker) (ho : s'.stdout = s.stdout)
    (he : s'.stderr = s.stderr) (l : Level) (msg : Text) :
    (Dispatch.followUp l msg).outcome s' = (Dispatch.followUp l msg).outcome s := by
  cases l with
  | fatal =>
    show Dispatch.endProcess.outcome s' = Dispatch.endProcess.outcome s
    unfold Session.outcome Dispatch.endProcess
    rw [Session.run_bind_ok Session.run_get, Session.run_bind_ok Session.run_get, hw, ho, he]
    cases s.onWorker with
    | false => rfl
    | true =>
      -- Each stream is flushed if it is there, and may fail to be.
      rcases s.stdout with _ | ⟨_, _ | f⟩ <;> rcases s.stderr with _ | ⟨_, _ | g⟩ <;> rfl
  | _ => rfl

section delivery

variable {l : Level} {call : Call} {cs : List (Option ContextRef)} {rs : List Record}

/-- A message that cannot be made leaves nothing in the appender. -/
theorem deliver_of_no_message {f : Failure} (hp : s.IsPlain c) (hr : s.appender r = .recording cs rs)
    (hf : (s.supplied call.fields).IsRegular) (hm : (formatMessage call.args call.templated).2 = .error f) :
    s.Recorded r [] ((Dispatch.deliver nested c l r call).leaves s) ∧
      (Dispatch.deliver nested c l r call).outcome s = .error f := by
  obtain ⟨h, s₁, hx, hs₁, -⟩ : ∃ h s₁, Dispatch.entryFields nested c l call s = .ok h s₁ ∧ s.Allots s₁ ∧ _ :=
    Dispatch.entryFields_plain hp hf
  have hd : Dispatch.deliver nested c l r call s = _ := Dispatch.deliver_of_mismatch hx hm
  rw [Session.leaves_error hd, Session.outcome_error hd]
  exact ⟨hs₁.recorded hr _ s₁.deliveries, rfl⟩

/-- An entry whose message can be made is recorded, and ends as its level says. -/
theorem deliver_of_made_message {msg : Text} (hp : s.IsPlain c) (hr : s.appender r = .recording cs rs)
    (hf : (s.supplied call.fields).IsRegular) (hm : (formatMessage call.args call.templated).2 = .ok msg) :
    s.Recorded r [⟨.level l, s.plainFields c call.fields, .text msg⟩]
        ((Dispatch.deliver nested c l r call).leaves s) ∧
      (Dispatch.deliver nested c l r call).outcome s = (Dispatch.followUp l msg).outcome s := by
  obtain ⟨h, s₁, hx, hs₁, hh⟩ : ∃ h s₁, Dispatch.entryFields nested c l call s = .ok h s₁ ∧ s.Allots s₁ ∧
      s₁.supplied h = .fields (s.plainFields c call.fields) := Dispatch.entryFields_plain hp hf
  obtain ⟨s₂, ⟨reports, rfl⟩, hd⟩ :=
    Dispatch.deliver_of_message (a := r) hx (Dispatch.entryFields_isMapping hf hx) hm
  generalize hs₂ : ({ s₁ with
    journal := s₁.journal ++ reports
    deliveries := s₁.deliveries ++ [⟨r, some c, .level l, s₁.supplied h, .text msg⟩] } : Store) = s₂ at hd
  have hnoted : s.Recorded r [] s₂ := hs₂ ▸ hs₁.recorded hr _ _
  obtain ⟨-, cs₁, rs₁, cs₂, hr₁, hr₂⟩ := id hnoted
  have hh₂ : s₂.supplied h = .fields (s.plainFields c call.fields) := by
    rw [← hs₂, ← hh]
    cases h <;> rfl
  obtain ⟨s₃, hreceive, hkept⟩ := receive_recording hr₂ hh₂ (some c) (.level l) (.text msg)
  rw [Session.run_seq_ok hreceive] at hd
  have hall := hnoted.trans hkept
  obtain ⟨ms, j, ds, as, hs₃⟩ := hall.1
  rw [Session.leaves_congr hd, Session.outcome_congr hd, Dispatch.followUp_leaves]
  refine ⟨hall, followUp_outcome ?_ ?_ ?_ l msg⟩
  all_goals rw [hs₃]

theorem dispatch_plain (depth : Nat)
    (hc : call.context.or s.defaults.context = some c) (hreg : (s.context c).IsRegular)
    (hp : s.IsPlain c) (ha : s.appenderOf s.defaults c = some r) (hr : s.appender r = .recording cs rs)
    (hf : (s.supplied call.fields).IsRegular) :
    s.Recorded r (s.plainRecord c call).toList ((dispatch (depth + 1) call).leaves s) ∧
      (dispatch (depth + 1) call).outcome s = s.plainOutcome c call := by
  have hrun := dispatchWith_run (dispatch depth) call s
  change dispatch (depth + 1) call s = _ at hrun
  generalize dispatch (depth + 1) call = x at hrun ⊢
  unfold Store.plainRecord Store.plainOutcome
  cases hl : Level.ofValue call.level with
  | error f =>
    rw [Store.admission_of_no_level hl] at hrun
    rw [Session.leaves_error hrun, Session.outcome_error hrun]
    exact ⟨.refl hr, rfl⟩
  | ok l =>
    rw [Store.admission_of_level hc hreg (Level.sameKey_of_ofValue hl), ha] at hrun
    by_cases ht : s.threshold c < l
    · rw [if_pos ht] at hrun
      rw [Session.leaves_ok hrun, Session.outcome_ok hrun]
      cases (formatMessage call.args call.templated).2 <;> simp only [if_pos ht]
      all_goals exact ⟨.refl hr, trivial⟩
    · simp only [if_neg ht] at hrun ⊢
      rw [Session.leaves_congr hrun, Session.outcome_congr hrun]
      -- The entry is let through, so that its message decides.
      cases hm : (formatMessage call.args call.templated).2 with
      | error f => exact deliver_of_no_message hp hr hf hm
      | ok msg =>
        simp only [if_neg ht]
        exact deliver_of_made_message hp hr hf hm

end delivery

/-! ## What a run does to the store -/

/-- What comes through a context runs no producer, and an appender records it. -/
structure Store.Collects (s : Store) (c : ContextRef) (r : AppenderRef) : Prop where
  plain : s.IsPlain c
  appender : s.appenderOf s.defaults c = some r
  recording : ∃ cs rs, s.appender r = .recording cs rs

/-- The call goes through a context, with nothing or a mapping in the store as its own fields. -/
structure Call.Fits (call : Call) (s : Store) (c : ContextRef) : Prop where
  context : call.context.or s.defaults.context = some c
  regular : (s.supplied call.fields).IsRegular
  known : s.Knows call.fields

namespace Store

variable {new : List Record} {call : Call}

theorem Recorded.supplied (h : s.Recorded r new s') {handle : Handle} (hk : s.Knows handle) :
    s'.supplied handle = s.supplied handle := by
  obtain ⟨⟨ms, j, ds, as, rfl⟩, -⟩ := h
  cases handle with
  | live m =>
    have hm : m.index < s.mappings.length := hk
    simp [Store.supplied, mapping, List.getElem?_append_left hm]
  | _ => rfl

theorem Recorded.knows (h : s.Recorded r new s') {handle : Handle} (hk : s.Knows handle) :
    s'.Knows handle := by
  obtain ⟨⟨ms, j, ds, as, rfl⟩, -⟩ := h
  cases handle with
  | live m =>
    have hm : m.index < s.mappings.length := hk
    exact Nat.lt_of_lt_of_le hm (by simp)
  | _ => trivial

theorem Recorded.collects (h : s.Recorded r new s') (hc : s.Collects c r) : s'.Collects c r where
  plain := by
    obtain ⟨⟨ms, j, ds, as, rfl⟩, -⟩ := h
    rcases hc.plain with hsource | ⟨m, hsource, hm⟩
    · exact .inl hsource
    · exact .inr ⟨m, hsource, Nat.lt_of_lt_of_le hm (by simp)⟩
  appender := by
    obtain ⟨⟨ms, j, ds, as, rfl⟩, -⟩ := h
    exact hc.appender
  recording := by
    obtain ⟨-, cs, rs, cs', -, hr⟩ := h
    exact ⟨cs', rs ++ new, hr⟩

theorem Recorded.context (h : s.Recorded r new s') : s'.context c = s.context c := by
  obtain ⟨⟨ms, j, ds, as, rfl⟩, -⟩ := h
  rfl

theorem Recorded.threshold (h : s.Recorded r new s') : s'.threshold c = s.threshold c := by
  obtain ⟨⟨ms, j, ds, as, rfl⟩, -⟩ := h
  rfl

theorem Recorded.fits (h : s.Recorded r new s') (hf : call.Fits s c) : call.Fits s' c where
  context := by
    obtain ⟨⟨ms, j, ds, as, rfl⟩, -⟩ := h
    exact hf.context
  regular := h.supplied hf.known ▸ hf.regular
  known := h.knows hf.known

theorem Recorded.plainFields (h : s.Recorded r new s') (hp : s.IsPlain c) {own : Handle}
    (hk : s.Knows own) : s'.plainFields c own = s.plainFields c own := by
  have hown : s'.ownFields own = s.ownFields own := by
    rw [ownFields, ownFields, h.supplied hk]
  have hsource : s'.sourceOf c = s.sourceOf c := by
    rw [sourceOf, sourceOf, h.context]
  unfold Store.plainFields
  rw [hsource, hown]
  rcases hp with hs | ⟨m, hs, hm⟩
  · rw [hs]
  · -- The fixed fields are in the store, and stay there.
    have hfixed : Supplied.fields (s'.mapping m) = .fields (s.mapping m) :=
      h.supplied (show s.Knows (.live m) from hm)
    rw [hs]
    dsimp only
    rw [Supplied.fields.inj hfixed]

theorem Recorded.plainRecord (h : s.Recorded r new s') (hp : s.IsPlain c) (hk : s.Knows call.fields) :
    s'.plainRecord c call = s.plainRecord c call := by
  unfold Store.plainRecord
  rw [h.plainFields hp hk, h.threshold]

theorem Recorded.plainOutcome (h : s.Recorded r new s') :
    s'.plainOutcome c call = s.plainOutcome c call := by
  obtain ⟨⟨ms, j, ds, as, rfl⟩, -⟩ := h
  have hends : ∀ l msg, (Dispatch.followUp l msg).outcome { s with
      mappings := s.mappings ++ ms, journal := j, deliveries := ds, appenders := as } =
        (Dispatch.followUp l msg).outcome s := followUp_outcome rfl rfl rfl
  unfold Store.plainOutcome
  simp only [hends]
  rfl

/-- A run records its entries one by one, each as the store tells that it began with. -/
theorem after_recorded (hc : s.Collects c r) (hreg : (s.context c).IsRegular) (depth : Nat)
    {calls : List Call} (hf : ∀ call ∈ calls, call.Fits s c) :
    s.Recorded r (calls.filterMap (s.plainRecord c)) (s.after (depth + 1) calls) := by
  induction calls generalizing s with
  | nil =>
    obtain ⟨cs, rs, hr⟩ := hc.recording
    exact .refl hr
  | cons call calls ih =>
    obtain ⟨hcall, hcalls⟩ := List.forall_mem_cons.1 hf
    obtain ⟨cs, rs, hr⟩ := hc.recording
    have hstep := (dispatch_plain depth hcall.context hreg hc.plain hc.appender hr hcall.regular).1
    have hrest := ih (hstep.collects hc) (hstep.context ▸ hreg) fun call' hmem =>
      hstep.fits (hcalls call' hmem)
    have hsame : calls.filterMap (((dispatch (depth + 1) call).leaves s).plainRecord c) =
        calls.filterMap (s.plainRecord c) :=
      List.filterMap_congr fun call' hmem => hstep.plainRecord hc.plain (hcalls call' hmem).known
    rw [hsame] at hrest
    have hall := hstep.trans hrest
    rw [List.filterMap_cons]
    cases hrec : s.plainRecord c call with
    | none => rw [hrec] at hall; exact hall
    | some record => rw [hrec] at hall; exact hall

/-- How a call ends after a run is told by the store that the run began with. -/
theorem outcome_after (hc : s.Collects c r) (hreg : (s.context c).IsRegular) (depth : Nat)
    {calls : List Call} (hf : ∀ call ∈ calls, call.Fits s c) (hcall : call.Fits s c) :
    (dispatch (depth + 1) call).outcome (s.after (depth + 1) calls) = s.plainOutcome c call := by
  have hrun := after_recorded hc hreg depth hf
  have hc' := hrun.collects hc
  have hcall' := hrun.fits hcall
  obtain ⟨cs, rs, hr⟩ := hc'.recording
  have hlast := dispatch_plain depth hcall'.context (hrun.context ▸ hreg) hc'.plain hc'.appender hr
    hcall'.regular
  rw [hlast.2, hrun.plainOutcome]

end Store

/-! ## Two thresholds -/

/-- Does the level of a record pass a threshold? -/
def Record.passes (t : Level) (record : Record) : Bool :=
  match record.level with
  | .level l => decide (l ≤ t)
  | _ => false

/-- A run from one store beside the same run from another one, of which it keeps the entries that pass
a threshold: the appender has recorded just these, in the same order, behind what it had; and each of
these entries ends in the same way in both runs. -/
structure Store.Narrows (s₁ s₂ : Store) (r : AppenderRef) (t : Level) (depth : Nat) (calls : List Call) :
    Prop where
  records : ∃ old new, (s₁.appender r).records = old ∧ (s₂.appender r).records = old ∧
    ((s₂.after depth calls).appender r).records = old ++ new ∧
    ((s₁.after depth calls).appender r).records = old ++ new.filter (·.passes t)
  outcomes : ∀ earlier call later, calls = earlier ++ call :: later →
    ∀ l : Level, call.level.SameKey (.level l) → l ≤ t →
      (dispatch depth call).outcome (s₁.after depth earlier) =
        (dispatch depth call).outcome (s₂.after depth earlier)

/-- Two stores in which entries through a context get the same fields, end alike once they are
delivered, and go to an appender that has the same records. -/
structure Store.SameEntries (s₁ s₂ : Store) (c : ContextRef) (r : AppenderRef) : Prop where
  fields : ∀ own, s₁.plainFields c own = s₂.plainFields c own
  ends : ∀ l msg, (Dispatch.followUp l msg).outcome s₁ = (Dispatch.followUp l msg).outcome s₂
  appender : s₁.appender r = s₂.appender r

namespace Store

variable {s₁ s₂ : Store} {call : Call}

theorem SameEntries.plainRecord (h : s₁.SameEntries s₂ c r) (ht : s₁.threshold c ≤ s₂.threshold c)
    (call : Call) :
    s₁.plainRecord c call = (s₂.plainRecord c call).filter (·.passes (s₁.threshold c)) := by
  unfold Store.plainRecord
  rw [h.fields]
  cases hl : Level.ofValue call.level with
  | error f => rfl
  | ok l =>
    cases hm : (formatMessage call.args call.templated).2 with
    | error f => rfl
    | ok msg =>
      dsimp only
      by_cases h₂ : s₂.threshold c < l
      · -- What is below the second threshold is below the first one.
        have h₁ : s₁.threshold c < l := Nat.lt_of_le_of_lt ht h₂
        rw [if_pos h₁, if_pos h₂]
        rfl
      · have hpasses : ∀ g m, Record.passes (s₁.threshold c) ⟨.level l, g, m⟩ =
            decide (l ≤ s₁.threshold c) := fun _ _ => rfl
        rw [if_neg h₂, Option.filter_some, hpasses]
        by_cases h₁ : s₁.threshold c < l
        · have hfails : ¬ l ≤ s₁.threshold c := fun hle => Level.not_lt.2 hle h₁
          simp [h₁, hfails]
        · simp [h₁, Level.not_lt.1 h₁]

theorem SameEntries.plainOutcome (h : s₁.SameEntries s₂ c r) (ht : s₁.threshold c ≤ s₂.threshold c)
    {l : Level} (hl : call.level.SameKey (.level l)) (hpass : l ≤ s₁.threshold c) :
    s₁.plainOutcome c call = s₂.plainOutcome c call := by
  have h₁ : ¬ s₁.threshold c < l := Level.not_lt.2 hpass
  have h₂ : ¬ s₂.threshold c < l := Level.not_lt.2 (Nat.le_trans hpass ht)
  unfold Store.plainOutcome
  rw [Level.ofValue_of_sameKey hl]
  dsimp only
  rw [if_neg h₁, if_neg h₂]
  simp only [h.ends]

theorem Recorded.records {new : List Record} (h : s.Recorded r new s') :
    (s'.appender r).records = (s.appender r).records ++ new := by
  obtain ⟨-, cs, rs, cs', hr, hr'⟩ := h
  rw [hr, hr']
  rfl

theorem SameEntries.narrows (h : s₁.SameEntries s₂ c r) (ht : s₁.threshold c ≤ s₂.threshold c)
    (hc₁ : s₁.Collects c r) (hc₂ : s₂.Collects c r) (hr₁ : (s₁.context c).IsRegular)
    (hr₂ : (s₂.context c).IsRegular) (depth : Nat) {calls : List Call}
    (hf₁ : ∀ call ∈ calls, call.Fits s₁ c) (hf₂ : ∀ call ∈ calls, call.Fits s₂ c) :
    s₁.Narrows s₂ r (s₁.threshold c) (depth + 1) calls where
  records := by
    refine ⟨_, calls.filterMap (s₂.plainRecord c), h.appender ▸ rfl, rfl,
      (after_recorded hc₂ hr₂ depth hf₂).records, ?_⟩
    rw [(after_recorded hc₁ hr₁ depth hf₁).records, h.appender, List.filter_filterMap]
    simp only [h.plainRecord ht]
  outcomes := by
    rintro earlier call later rfl l hl hpass
    have hfits : ∀ {s}, (∀ call' ∈ earlier ++ call :: later, call'.Fits s c) →
        (∀ call' ∈ earlier, call'.Fits s c) ∧ call.Fits s c := fun hf =>
      ⟨fun call' hmem => hf call' (List.mem_append_left _ hmem),
        hf call (List.mem_append_right _ List.mem_cons_self)⟩
    rw [outcome_after hc₁ hr₁ depth (hfits hf₁).1 (hfits hf₁).2,
      outcome_after hc₂ hr₂ depth (hfits hf₂).1 (hfits hf₂).2, h.plainOutcome ht hl hpass]

/-- The second store is the first one with other contexts and defaults, in which a context has the same
source and appender, and the same context is the default one. Its threshold may differ. -/
structure Regated (s s' : Store) (c : ContextRef) : Prop where
  same : ∃ contexts defaults, s' = { s with contexts, defaults }
  source : s'.sourceOf c = s.sourceOf c
  appender : s'.appenderOf s'.defaults c = s.appenderOf s.defaults c
  context : s'.defaults.context = s.defaults.context

theorem Regated.supplied (h : s.Regated s' c) (handle : Handle) :
    s'.supplied handle = s.supplied handle := by
  obtain ⟨contexts, defaults, rfl⟩ := h.same
  cases handle <;> rfl

theorem Regated.collects (h : s.Regated s' c) (hc : s.Collects c r) : s'.Collects c r where
  plain := by
    have hroom : s'.mappings = s.mappings := by
      obtain ⟨contexts, defaults, rfl⟩ := h.same
      rfl
    rw [IsPlain, h.source, hroom]
    exact hc.plain
  appender := h.appender.trans hc.appender
  recording := by
    obtain ⟨contexts, defaults, rfl⟩ := h.same
    exact hc.recording

theorem Regated.fits (h : s.Regated s' c) (hf : call.Fits s c) : call.Fits s' c where
  context := by
    rw [h.context]
    exact hf.context
  regular := h.supplied _ ▸ hf.regular
  known := by
    obtain ⟨contexts, defaults, rfl⟩ := h.same
    have hk := hf.known
    cases hfields : call.fields <;> rw [hfields] at hk <;> exact hk

theorem Regated.sameEntries (h₁ : s.Regated s₁ c) (h₂ : s.Regated s₂ c) (r : AppenderRef) :
    s₁.SameEntries s₂ c r where
  fields own := by
    have hown : s₁.ownFields own = s₂.ownFields own := by
      rw [ownFields, ownFields, h₁.supplied, h₂.supplied]
    have hfixed : ∀ m, s₁.mapping m = s₂.mapping m := by
      obtain ⟨contexts₁, defaults₁, rfl⟩ := h₁.same
      obtain ⟨contexts₂, defaults₂, rfl⟩ := h₂.same
      exact fun _ => rfl
    unfold plainFields
    simp only [h₁.source, h₂.source, hown, hfixed]
  ends l msg := by
    obtain ⟨contexts₁, defaults₁, rfl⟩ := h₁.same
    obtain ⟨contexts₂, defaults₂, rfl⟩ := h₂.same
    refine followUp_outcome ?_ ?_ ?_ l msg <;> rfl
  appender := by
    obtain ⟨contexts₁, defaults₁, rfl⟩ := h₁.same
    obtain ⟨contexts₂, defaults₂, rfl⟩ := h₂.same
    rfl

theorem Regated.narrows (h₁ : s.Regated s₁ c) (h₂ : s.Regated s₂ c) (hc : s.Collects c r)
    (hr₁ : (s₁.context c).IsRegular) (hr₂ : (s₂.context c).IsRegular)
    (ht : s₁.threshold c ≤ s₂.threshold c) (depth : Nat) {calls : List Call}
    (hf : ∀ call ∈ calls, call.Fits s c) :
    s₁.Narrows s₂ r (s₁.threshold c) (depth + 1) calls :=
  (h₁.sameEntries h₂ r).narrows ht (h₁.collects hc) (h₂.collects hc) hr₁ hr₂ depth
    (fun call hmem => h₁.fits (hf call hmem)) fun call hmem => h₂.fits (hf call hmem)

/-- The store with another threshold for a context. -/
def withThreshold (s : Store) (c : ContextRef) (t : Level) : Store :=
  { s with contexts := s.contexts.set c.index ((s.context c).withLevel t) }

/-- The store with another default threshold. -/
def withDefaultThreshold (s : Store) (t : Level) : Store :=
  { s with defaults := { s.defaults with level := t } }

theorem context_withThreshold (hi : c.index < s.contexts.length) (t : Level) :
    (s.withThreshold c t).context c = (s.context c).withLevel t := by
  simp [withThreshold, context, hi]

theorem regated_withThreshold (hi : c.index < s.contexts.length) (t : Level) :
    s.Regated (s.withThreshold c t) c where
  same := ⟨_, _, rfl⟩
  source := by
    rw [sourceOf, context_withThreshold hi]
    rfl
  appender := by
    rw [appenderOf, context_withThreshold hi]
    rfl
  context := rfl

theorem regated_withDefaultThreshold (s : Store) (c : ContextRef) (t : Level) :
    s.Regated (s.withDefaultThreshold t) c := ⟨⟨_, _, rfl⟩, rfl, rfl, rfl⟩

end Store

open Store

/-- A run through a context that runs no producer and whose entries are recorded keeps, at a more severe
threshold, of the entries that it has at a less severe one just those that pass. It makes no difference
whether the threshold is that of the context or, where it has none, the default one. -/
theorem records_of_thresholds (hc : s.Collects c r) (hi : c.index < s.contexts.length) (depth : Nat)
    {calls : List Call} (hf : ∀ call ∈ calls, call.Fits s c) {t₁ t₂ : Level} (ht : t₁ ≤ t₂) :
    (s.withThreshold c t₁).Narrows (s.withThreshold c t₂) r t₁ (depth + 1) calls ∧
      ((s.context c).level = .none →
        (s.withDefaultThreshold t₁).Narrows (s.withDefaultThreshold t₂) r t₁ (depth + 1) calls) := by
  refine ⟨?_, fun hnone => ?_⟩
  · have hthreshold : ∀ t, (s.withThreshold c t).threshold c = t := fun t => by
      rw [threshold, context_withThreshold hi]
      rfl
    have hreg : ∀ t, ((s.withThreshold c t).context c).IsRegular := fun t =>
      .inr ⟨t, by rw [context_withThreshold hi]; rfl⟩
    have hnarrow := (regated_withThreshold hi t₁).narrows (regated_withThreshold hi t₂) hc (hreg t₁)
      (hreg t₂) (by rwa [hthreshold, hthreshold]) depth hf
    rwa [hthreshold] at hnarrow
  · have hthreshold : ∀ t, (s.withDefaultThreshold t).threshold c = t := fun t => by
      have hlevel : ((s.withDefaultThreshold t).context c).level = .none := hnone
      rw [threshold, hlevel]
      rfl
    have hnarrow := (s.regated_withDefaultThreshold c t₁).narrows (s.regated_withDefaultThreshold c t₂) hc
      (.inl hnone) (.inl hnone) (by rwa [hthreshold, hthreshold]) depth hf
    rwa [hthreshold] at hnarrow

/-- A store with a context that has fixed fields and no threshold, and an appender that keeps entries. -/
def fixedSource : Store where
  mappings := [.ofList [(.str "service", .str "web")], .ofList [(.str "user", .str "ada")]]
  contexts := [{}, { source := .static ⟨0⟩ }]
  appenders := [.recording [] []]
  defaults := { appender := some ⟨0⟩ }

/-- A warning, an entry that ends the process, one without a level, and one whose template does not fit. -/
def mixedCalls : List Call :=
  [{ context := some ⟨1⟩, level := .level .warn, fields := .live ⟨1⟩, args := [.str "slow"] },
    { context := some ⟨1⟩, level := .level .fatal, args := [.str "down"] },
    { context := some ⟨1⟩, level := .str "loud" },
    { context := some ⟨1⟩, level := .int 4, fields := .live ⟨1⟩, args := [.str "%d", .str "x"] }]

theorem records_of_thresholds_fixedSource :
    (fixedSource.withThreshold ⟨1⟩ .error).Narrows (fixedSource.withThreshold ⟨1⟩ .info) ⟨0⟩ .error 1
        mixedCalls ∧
      (fixedSource.withDefaultThreshold .error).Narrows (fixedSource.withDefaultThreshold .info) ⟨0⟩
        .error 1 mixedCalls := by
  have hc : fixedSource.Collects ⟨1⟩ ⟨0⟩ := ⟨.inr ⟨⟨0⟩, rfl, by decide⟩, rfl, [], [], rfl⟩
  have hf : ∀ call ∈ mixedCalls, call.Fits fixedSource ⟨1⟩ := by
    simp only [mixedCalls, List.forall_mem_cons]
    refine ⟨⟨rfl, trivial, ?_⟩, ⟨rfl, trivial, trivial⟩, ⟨rfl, trivial, trivial⟩,
      ⟨rfl, trivial, ?_⟩, nofun⟩
    all_goals exact Nat.lt_succ_self 1
  have h := records_of_thresholds hc (by decide) 0 hf (by decide : Level.error ≤ Level.info)
  exact ⟨h.1, h.2 rfl⟩

end ContextLog
