import Mathlib.Data.List.Forall2
import ContextLog.Proofs.Origin
import ContextLog.Proofs.Untraced
/-!
# Records of entries

While entries are traced, each one that reaches its appender is recorded in the journal, and no other one is.
The record stands behind the reports on the arguments of the same entry, and has what the appender is handed:
the name of its type, the name of the level, the content of the fields and the message
(`Report.Records`). `dispatch_traced` says so for an entry with all those inside it, and that tracing makes no
other difference.
-/

namespace ContextLog

variable {caught : Tolerance} {nested : Call → Session Unit} {s s₁ s' : Store} {c : ContextRef} {l : Level}
  {a : AppenderRef} {call : Call} {depth : Nat} {around : List Handle}

/-! ## The record of a delivery -/

/-- A report is the record of a delivery to an appender of a type. -/
def Report.Records (r : Report) (type : String) (d : Delivery) : Prop :=
  ∃ l f, d.level = .level l ∧ d.fields = .fields f ∧
    r = .append (.named [("appender", .str type), ("level", .str l.name), ("fields", f.toValue), ("msg", d.msg)])

theorem Report.event_fields (type : String) (l : Level) (f : Fields) (msg : Value) :
    event type (.level l) (.fields f) msg = .ok (.named
      [("appender", .str type), ("level", .str l.name), ("fields", f.toValue), ("msg", msg)]) := by
  unfold event
  rw [Supplied.copyIfPresent_fields]
  rfl

/-- An entry that reaches its appender is recorded if entries are traced. No other one is. -/
structure Share.IsRecorded (x : Share) (s : Store) : Prop where
  mismatches : ∀ r ∈ x.mismatches, r.message = "template_mismatch"
  undelivered : x.delivery = none → x.records = []
  untraced : s.defaults.debug.isTrue = false → x.records = []
  traced : s.defaults.debug.isTrue = true → ∀ d, x.delivery = some d →
    ∃ r, x.records = [r] ∧ r.Records (s.appender d.appender).typeName d

theorem Share.isRecorded_of_undelivered {x : Share} (hm : ∀ r ∈ x.mismatches, r.message = "template_mismatch")
    (hr : x.records = []) (hd : x.delivery = none) : x.IsRecorded s :=
  ⟨hm, fun _ => hr, fun _ => hr, fun _ d h => by rw [hd] at h; cases h⟩

theorem Call.message_mismatches (call : Call) : ∀ r ∈ call.mismatches, r.message = "template_mismatch" := by
  unfold mismatches
  cases (formatMessage call.args call.templated).1 with
  | none => exact fun r hr => absurd hr List.not_mem_nil
  | some m => exact List.forall_mem_singleton.2 rfl

theorem Store.types_stable (s : Store) :
    Stable (fun _ => True) (fun _ => True) fun s' => ∀ r, (s'.appender r).typeName = (s.appender r).typeName where
  step h hstep := by
    cases hstep with
    | received r a ha => exact fun q => (kind_received ha q).typeName.trans (h q)
    | _ => exact h
  fresh _ := trivial
  edits _ _ := .inr fun _ => trivial

theorem Dispatch.share_isRecorded (hr : call.fields.IsRegular)
    (htypes : ∀ h s₁, entryFields nested c l call s = .ok h s₁ →
      (s₁.appender a).typeName = (s.appender a).typeName) :
    (share nested c l a call s).IsRecorded s := by
  unfold share
  split
  · exact Share.isRecorded_of_undelivered (fun r hr => absurd hr List.not_mem_nil) rfl rfl
  · exact Share.isRecorded_of_undelivered call.message_mismatches rfl rfl
  · rename_i h s₁ msg hx _
    dsimp only
    split
    · exact Share.isRecorded_of_undelivered call.message_mismatches rfl rfl
    · rename_i records hrecords
      have hrecord := Store.recordOf_ok hrecords
      obtain ⟨f, hf⟩ := entryFields_isMapping (hr s) hx s₁
      refine ⟨call.message_mismatches, nofun, fun hdebug => ?_, fun hdebug d hd => ?_⟩
      · rw [hdebug] at hrecord
        exact hrecord
      · rw [hdebug] at hrecord
        cases hd
        obtain ⟨event, hevent, rfl⟩ := hrecord
        refine ⟨_, rfl, l, f, rfl, hf, ?_⟩
        rw [hf, Report.event_fields, htypes h s₁ hx] at hevent
        rw [Except.ok.inj hevent]

/-! ## What the entries of a tree have in common -/

/-- The second store has the same programs and the same types of appenders, and the same defaults unless a
producer changes them. -/
structure Store.Settled (s s' : Store) : Prop where
  programs : ∀ p, (s'.producer p).program = (s.producer p).program
  types : ∀ r, (s'.appender r).typeName = (s.appender r).typeName
  defaults : s.SparesDefaults → s'.defaults = s.defaults

namespace Store

theorem Settled.refl (s : Store) : s.Settled s := ⟨fun _ => rfl, fun _ => rfl, fun _ => rfl⟩

theorem Settled.trans {s s' s'' : Store} (h : s.Settled s') (h' : s'.Settled s'') : s.Settled s'' where
  programs p := (h'.programs p).trans (h.programs p)
  types r := (h'.types r).trans (h.types r)
  defaults hs := (h'.defaults (hs.of_programs h.programs)).trans (h.defaults hs)

theorem Quiet.settled (h : s.Quiet s') : s.Settled s' where
  programs := h.programs
  types := by obtain ⟨ms, ps, rs, d, rfl, -⟩ := h.same; exact fun _ => rfl
  defaults := h.defaults

end Store

theorem dispatchWithin_settled (caught : Tolerance) (depth : Nat) (call : Call) (s : Store) :
    s.Settled ((dispatchWithin caught depth call).leaves s) where
  programs := (dispatchWithin_keeps s.programs_stable depth call).leaves fun _ => rfl
  types := (dispatchWithin_keeps s.types_stable depth call).leaves fun _ => rfl
  defaults hs := ((dispatchWithin_shares depth [] call s).settled hs).2

theorem sentWithin_settled (caught : Tolerance) (depth : Nat) (call : Call) (s : Store) :
    s.Settled ((sentWithin caught depth call).leaves s) := by
  rw [sentWithin, Session.catching_leaves]
  exact dispatchWithin_settled caught depth call s

/-- An entry that is sent while another one is dispatched is like this one. -/
theorem Call.sends_settled {b : Store} (hb : b.SendsRegular) (hs : b.Settled s) {sent : Call × Store}
    (hsent : sent ∈ call.sends (sentWithin caught depth) s) :
    sent.1.fields.IsRegular ∧ b.Settled sent.2 := by
  obtain ⟨s₁, s₂, hbefore, hreach, hfrom, -⟩ := sends_reach (R := Store.Settled)
    (fun _ _ => Store.Quiet.settled) (fun _ _ _ => Store.Settled.trans) (sentWithin_programs caught depth)
    (fun sent => sentWithin_settled caught depth sent.1 sent.2) hsent
  have hs₂ := (hs.trans hbefore.settled).trans hreach
  exact ⟨sends_regular (hb.of_programs hs.programs) hsent, hs₂.trans hfrom.quiet.settled⟩

theorem Call.share_isRecorded (hr : call.fields.IsRegular) (depth : Nat) (s : Store) :
    (call.share (sentWithin caught depth) s).IsRecorded s := by
  unfold Call.share
  split
  · rename_i c l a _
    refine Dispatch.share_isRecorded hr fun h s₁ hx => ?_
    have hn : ∀ call, (sentWithin caught depth call).Keeps
        fun s' => ∀ r, (s'.appender r).typeName = (s.appender r).typeName := fun call =>
      (dispatchWithin_keeps s.types_stable depth call).catching (caught call)
    have hfields := Dispatch.entryFields_yields s.types_stable.toSteady (fun _ => rfl)
      (fun _ _ _ _ _ _ s₂ sent hs₂ _ _ => hn sent s₂ hs₂) l call (c := c)
    exact (hfields.ok hx).1 a
  · exact Share.isRecorded_of_undelivered (fun r hr => absurd hr List.not_mem_nil) rfl rfl

/-- Every dispatch of a tree has its record, and begins with what the outermost one begins with. -/
theorem Tree.isRecorded (hs : s.SendsRegular) (hr : call.fields.IsRegular) :
    ∀ v ∈ (Tree.of caught depth around call s).postorder, v.share.IsRecorded v.before ∧ s.Settled v.before := by
  intro v hv
  obtain ⟨depth, hof, hregular, hsettled⟩ := Tree.forall_postorder
    (Q := fun _ call s' => call.fields.IsRegular ∧ s.Settled s')
    (fun _ _ _ _ hq _ hsent => Call.sends_settled hs hq.2 hsent) ⟨hr, .refl s⟩ v hv
  refine ⟨?_, hsettled⟩
  rw [hof]
  cases depth with
  | zero => exact Share.isRecorded_of_undelivered (fun r hr => absurd hr List.not_mem_nil) rfl rfl
  | succ depth => exact Call.share_isRecorded hregular depth v.before

/-! ## The records of a run -/

theorem filter_isAppend (rs : List Report) :
    (rs.filter (·.isOfEntry)).filter (·.isAppend) = rs.filter (·.isAppend) := by
  rw [List.filter_filter]
  refine List.filter_congr fun r _ => ?_
  cases h : r.isAppend with
  | false => rfl
  | true =>
    have hmessage : r.message = "append" := by simpa [Report.isAppend] using h
    simp [Report.isOfEntry, hmessage]

theorem Share.IsRecorded.filter_reports {x : Share} (h : x.IsRecorded s) :
    x.reports.filter (·.isAppend) = x.records := by
  have hmismatches : x.mismatches.filter (·.isAppend) = [] :=
    List.filter_eq_nil_iff.2 fun r hr => by simp [Report.isAppend, h.mismatches r hr]
  rw [Share.reports, List.filter_append, hmismatches, List.nil_append]
  cases hdebug : s.defaults.debug.isTrue with
  | false => rw [h.untraced hdebug]; rfl
  | true =>
    cases hd : x.delivery with
    | none => rw [h.undelivered hd]; rfl
    | some d =>
      obtain ⟨r, hrecords, l, f, -, -, rfl⟩ := h.traced hdebug d hd
      rw [hrecords]
      rfl

theorem filter_reports {vs : List Visit} (h : ∀ v ∈ vs, v.share.IsRecorded v.before) :
    (vs.flatMap (·.share.reports)).filter (·.isAppend) = vs.flatMap (·.share.records) := by
  induction vs with
  | nil => rfl
  | cons v vs ih =>
    obtain ⟨hv, hvs⟩ := List.forall_mem_cons.1 h
    rw [List.flatMap_cons, List.filter_append, hv.filter_reports, ih hvs, List.flatMap_cons]

/-- While entries are traced, there is a record for each delivery, in the same order. -/
theorem records_of_deliveries {vs : List Visit}
    (h : ∀ v ∈ vs, v.share.IsRecorded v.before ∧ s.Settled v.before)
    (hs : s.SparesDefaults) (hdebug : s.defaults.debug.isTrue = true) :
    List.Forall₂ (fun r d => r.Records (s.appender d.appender).typeName d) (vs.flatMap (·.share.records))
      (vs.filterMap (·.share.delivery)) := by
  induction vs with
  | nil => exact .nil
  | cons v vs ih =>
    obtain ⟨⟨hv, hsettled⟩, hvs⟩ := List.forall_mem_cons.1 h
    simp only [List.flatMap_cons, List.filterMap_cons]
    cases hd : v.share.delivery with
    | none =>
      rw [hv.undelivered hd]
      exact ih hvs
    | some d =>
      obtain ⟨r, hrecords, hr⟩ := hv.traced (by rw [hsettled.defaults hs]; exact hdebug) d hd
      rw [hsettled.types] at hr
      rw [hrecords]
      exact .cons hr (ih hvs)

theorem no_records {vs : List Visit} (h : ∀ v ∈ vs, v.share.IsRecorded v.before ∧ s.Settled v.before)
    (hs : s.SparesDefaults) (hdebug : s.defaults.debug.isTrue = false) :
    vs.flatMap (·.share.records) = [] :=
  List.flatMap_eq_nil_iff.2 fun v hv =>
    (h v hv).1.untraced (by rw [(h v hv).2.defaults hs]; exact hdebug)

/-! ## The law -/

/-- The store with another setting for whether entries are traced. -/
def Store.withDebug (s : Store) (debug : Value) : Store := { s with defaults := { s.defaults with debug } }

/-- What tracing does to the dispatch `x` of an entry, with all those inside it. -/
structure Traced (caught : Tolerance) (depth : Nat) (call : Call) (s : Store) (x : Session Unit) : Prop where
  /-- Traced or not, the dispatch ends in the same way, and in the same store but for the records. -/
  apart : ∀ v v', x.outcome (s.withDebug v') = x.outcome (s.withDebug v) ∧
    (x.leaves (s.withDebug v')).untraced = (x.leaves (s.withDebug v)).untraced
  /-- Every dispatch has its reports together: those on its arguments, and then its record. -/
  reports : (x.leaves s).journal.filter (·.isOfEntry) = s.journal.filter (·.isOfEntry) ++
    (Tree.of caught depth [] call s).postorder.flatMap (·.share.reports)
  deliveries : (x.leaves s).deliveries =
    s.deliveries ++ (Tree.of caught depth [] call s).postorder.filterMap (·.share.delivery)
  /-- A dispatch is recorded if it comes to a delivery, and if entries are traced when it begins. -/
  recorded : ∀ v ∈ (Tree.of caught depth [] call s).postorder, v.share.IsRecorded v.before
  /-- With tracing on, there is one more record for each delivery. -/
  on : s.SparesDefaults → s.defaults.debug.isTrue = true →
    ∃ rs, (x.leaves s).journal.filter (·.isAppend) = s.journal.filter (·.isAppend) ++ rs ∧
      List.Forall₂ (fun r d => r.Records (s.appender d.appender).typeName d) rs
        ((Tree.of caught depth [] call s).postorder.filterMap (·.share.delivery))
  /-- With tracing off, there is no other record. -/
  off : s.SparesDefaults → s.defaults.debug.isTrue = false →
    (x.leaves s).journal.filter (·.isAppend) = s.journal.filter (·.isAppend)

theorem dispatchWithin_traced (hs : s.SendsRegular) (hr : call.fields.IsRegular) (caught : Tolerance)
    (depth : Nat) : Traced caught depth call s (dispatchWithin caught depth call) := by
  have hshares : s.Shares _ ((dispatchWithin caught depth call).leaves s) :=
    dispatchWithin_shares depth [] call s
  have hrecorded : ∀ v ∈ (Tree.of caught depth [] call s).postorder,
      v.share.IsRecorded v.before ∧ s.Settled v.before := Tree.isRecorded hs hr
  have hreports := hshares.reports
  rw [List.flatMap_map] at hreports
  have hrecords : ((dispatchWithin caught depth call).leaves s).journal.filter (·.isAppend) =
      s.journal.filter (·.isAppend) ++
        (Tree.of caught depth [] call s).postorder.flatMap (·.share.records) := by
    rw [← filter_isAppend, hreports, List.filter_append, filter_isAppend,
      filter_reports fun v hv => (hrecorded v hv).1]
  refine
    { apart := fun v v' => ?_
      reports := hreports
      deliveries := by rw [hshares.deliveries, List.filterMap_map]; rfl
      recorded := fun v hv => (hrecorded v hv).1
      on := fun hspares hdebug => ⟨_, hrecords, records_of_deliveries hrecorded hspares hdebug⟩
      off := fun hspares hdebug => by rw [hrecords, no_records hrecorded hspares hdebug, List.append_nil] }
  have halike : (s.withDebug v).Alike (s.withDebug v') := ⟨rfl, hs⟩
  have hends := dispatchWithin_alike caught depth halike hr
  exact ⟨hends.outcome, hends.leaves.untraced⟩

/-- Entries with nothing or a mapping as their fields follow these rules, and so do all those that producers
send while they are dispatched, whichever failures the producers catch. -/
theorem dispatch_traced (hs : s.SendsRegular) (hr : (s.supplied call.fields).IsRegular) (depth : Nat) :
    Traced .strict depth call s (dispatch depth call) ∧
      ∀ caught, Traced caught depth call s (dispatchWithin caught depth call) :=
  have hcall := Handle.isRegular_of_supplied hr
  ⟨dispatchWithin_strict depth call ▸ dispatchWithin_traced hs hcall .strict depth,
    fun caught => dispatchWithin_traced hs hcall caught depth⟩

/-- A store with a context whose source sends an entry, with an argument that does not fit its template.
Entries are traced. -/
def tracedSource : Store where
  mappings := [.ofList [(.str "user", .str "ada")]]
  contexts := [{}, { source := .contextual (.producer ⟨0⟩) }]
  producers := [{
    signature := none
    program := [.dispatch .default (.level .error) .nothing [.str "%d", .str "inner"], .output (.str "n") (.int 1)]
    typeName := "function"
    representation := "<function>" }]
  appenders := [.recording [] []]
  defaults := { appender := some ⟨0⟩, debug := .bool true }

/-- An entry through that context. -/
def tracedEntry : Call := { context := some ⟨1⟩, level := .level .fatal, fields := .live ⟨0⟩, args := [.str "outer"] }

/-- There are two records, one for each delivery, and the process ends as it does without them. -/
theorem dispatch_traced_tracedSource :
    Traced .strict 2 tracedEntry tracedSource (dispatch 2 tracedEntry) ∧
      (((dispatch 2 tracedEntry).leaves tracedSource).journal.filter (·.isAppend)).length = 2 ∧
      (dispatch 2 tracedEntry).outcome (tracedSource.withDebug (.bool false)) =
        (dispatch 2 tracedEntry).outcome tracedSource := by
  have hs : tracedSource.SendsRegular := by
    rintro ⟨_ | n⟩
    · exact List.forall_mem_cons.2 ⟨trivial, List.forall_mem_singleton.2 trivial⟩
    · exact fun _ h => absurd h List.not_mem_nil
  have hspares : tracedSource.SparesDefaults := by
    rintro ⟨_ | n⟩
    · exact List.forall_mem_cons.2 ⟨rfl, List.forall_mem_singleton.2 rfl⟩
    · exact fun _ h => absurd h List.not_mem_nil
  have h := (dispatch_traced hs (show (tracedSource.supplied tracedEntry.fields).IsRegular from trivial) 2).1
  refine ⟨h, ?_, (h.apart (.bool true) (.bool false)).1⟩
  obtain ⟨rs, hrecords, hrs⟩ := h.on hspares rfl
  rw [hrecords]
  exact hrs.length_eq

end ContextLog
