import ContextLog.Proofs.Emission
import ContextLog.Proofs.Sends
import ContextLog.Proofs.Sinks
/-!
# Entries inside entries

`Tree.of` is the tree of all dispatches that take place while an entry is dispatched, each with the store
that it begins with, how it ends, and its share: what is reported on it and what its appender is handed.
A producer may catch the failure of an entry that it sends (`dispatchWithin`); if none does, this is
`dispatch`. What is delivered, what the sinks keep of it and what is reported are the shares of the tree in
post-order, those of the entries inside an entry before its own (`dispatchWithin_shares`).
-/

namespace ContextLog

/-! ## Producers that catch failures -/

/-- Which failures a producer catches of an entry that it sends. -/
abbrev Tolerance := Call → Failure → Bool

/-- The tolerance of producers that catch nothing. -/
def Tolerance.strict : Tolerance := fun _ _ => false

/-- Goes on as if nothing had happened after a failure that is caught; what has been done stays done. -/
def Session.catching (x : Session Unit) (caught : Failure → Bool) : Session Unit :=
  try x catch f => if caught f then pure () else throw f

/-- Dispatches an entry, with at most `depth` calls inside each other; producers catch some failures of
the entries that they send. -/
def dispatchWithin (caught : Tolerance) : Nat → Call → Session Unit
  | 0, _ => throw .nestedTooDeeply
  | depth + 1, call => dispatchWith (fun sent => (dispatchWithin caught depth sent).catching (caught sent)) call

/-- What becomes of an entry that a producer sends. -/
def sentWithin (caught : Tolerance) (depth : Nat) (call : Call) : Session Unit :=
  (dispatchWithin caught depth call).catching (caught call)

variable {caught : Tolerance} {nested : Call → Session Unit} {s s₁ s' s'' : Store} {c : ContextRef}
  {l : Level} {a : AppenderRef} {call : Call} {h : Handle}

theorem Session.catching_run (x : Session Unit) (caught : Failure → Bool) (s : Store) :
    x.catching caught s = match x s with
      | .ok _ s' => .ok () s'
      | .error f s' => if caught f then .ok () s' else .error f s' := by
  show EStateM.tryCatch x _ s = _
  unfold EStateM.tryCatch
  cases x s with
  | ok _ s' => rfl
  | error f s' =>
    dsimp only
    cases caught f <;> rfl

theorem Session.catching_leaves (x : Session Unit) (caught : Failure → Bool) (s : Store) :
    (x.catching caught).leaves s = x.leaves s := by
  unfold Session.leaves
  rw [catching_run]
  cases x s with
  | ok _ s' => rfl
  | error f s' => cases hf : caught f <;> simp [hf]

theorem Session.Keeps.catching {I : Store → Prop} {x : Session Unit} (hx : x.Keeps I)
    (caught : Failure → Bool) : (x.catching caught).Keeps I := fun _ hs =>
  .of_leaves (by rw [catching_leaves]; exact hx.leaves hs)

theorem dispatchWithin_succ (caught : Tolerance) (depth : Nat) (call : Call) :
    dispatchWithin caught (depth + 1) call = dispatchWith (sentWithin caught depth) call := rfl

theorem sentWithin_strict (depth : Nat) : sentWithin .strict depth = dispatchWithin .strict depth := by
  funext sent s
  rw [sentWithin, Session.catching_run]
  cases dispatchWithin .strict depth sent s <;> rfl

/-- Producers that catch nothing are those of `dispatch`. -/
theorem dispatchWithin_strict (depth : Nat) (call : Call) :
    dispatchWithin .strict depth call = dispatch depth call := by
  induction depth generalizing call with
  | zero => rfl
  | succ depth ih =>
    rw [dispatchWithin_succ, sentWithin_strict, funext ih]
    rfl

/-- What every step keeps, every dispatch keeps, whatever producers catch. -/
theorem dispatchWithin_keeps {owned : MappingRef → Prop} {I : Store → Prop}
    (hI : Store.Stable owned (fun _ => True) I) (depth : Nat) (call : Call) :
    (dispatchWithin caught depth call).Keeps I := by
  induction depth generalizing call with
  | zero => exact .throw _
  | succ depth ih => exact dispatchWith_keeps_of_nested hI (fun sent => (ih sent).catching (caught sent)) call

theorem Store.programs_stable (s : Store) :
    Stable (fun _ => True) (fun _ => True) fun s' => ∀ p, (s'.producer p).program = (s.producer p).program where
  step h hstep := by
    cases hstep with
    | called p => exact fun q => (program_called _ p q).trans (h q)
    | _ => exact h
  fresh _ := trivial
  edits _ _ := .inr fun _ => trivial

theorem sentWithin_programs (caught : Tolerance) (depth : Nat) : NestedPrograms (sentWithin caught depth) := by
  intro call s p
  rw [sentWithin, Session.catching_leaves]
  exact (dispatchWithin_keeps s.programs_stable depth call).leaves (fun _ => rfl) p

/-! ## The share of one entry -/

/-- What an entry comes to by itself, without those inside it: the reports on arguments that do not fit
their template, the record of it if entries are traced, and what its appender is handed if it gets so
far. -/
structure Share where
  mismatches : List Report := []
  records : List Report := []
  delivery : Option Delivery := none

/-- All that is reported on an entry, in order. -/
def Share.reports (x : Share) : List Report := x.mismatches ++ x.records

/-- The second store is the first one after entries with these shares: all that they deliver is delivered,
the sinks have taken it, and all that is reported on them is in the journal. If no producer changes the
defaults, they are the same. -/
structure Store.Shares (s : Store) (xs : List Share) (s' : Store) : Prop where
  deliveries : s'.deliveries = s.deliveries ++ xs.filterMap (·.delivery)
  sinks : s'.sinks = (xs.filterMap (·.delivery)).foldl Sinks.take s.sinks
  reports : s'.journal.filter (·.isOfEntry) = s.journal.filter (·.isOfEntry) ++ xs.flatMap (·.reports)
  settled : s.SparesDefaults → s'.SparesDefaults ∧ s'.defaults = s.defaults

namespace Store

variable {xs ys : List Share}

theorem Shares.trans (h : s.Shares xs s') (h' : s'.Shares ys s'') : s.Shares (xs ++ ys) s'' where
  deliveries := by rw [h'.deliveries, h.deliveries, List.filterMap_append, List.append_assoc]
  sinks := by rw [h'.sinks, h.sinks, List.filterMap_append, List.foldl_append]
  reports := by rw [h'.reports, h.reports, List.flatMap_append, List.append_assoc]
  settled hs := by
    obtain ⟨hs', hd⟩ := h.settled hs
    obtain ⟨hs'', hd'⟩ := h'.settled hs'
    exact ⟨hs'', hd'.trans hd⟩

/-- What a producer does by itself belongs to no entry. -/
theorem Quiet.shares (h : s.Quiet s') : s.Shares [] s' := by
  have hsettled : s.SparesDefaults → s'.SparesDefaults ∧ s'.defaults = s.defaults := fun hs =>
    ⟨hs.of_programs h.programs, h.defaults hs⟩
  obtain ⟨ms, ps, rs, d, rfl, hrs⟩ := h.same
  refine ⟨(List.append_nil _).symm, rfl, ?_, hsettled⟩
  have hnone : rs.filter (·.isOfEntry) = [] := List.filter_eq_nil_iff.2 fun r hr => by simp [hrs r hr]
  simp only [List.filter_append, hnone, List.flatMap_nil]

theorem Shares.nothing (s : Store) : s.Shares [{}] s :=
  ⟨(List.append_nil _).symm, rfl, (List.append_nil _).symm, fun hs => ⟨hs, rfl⟩⟩

end Store

theorem Call.filter_mismatches (call : Call) :
    call.mismatches.filter (·.isOfEntry) = call.mismatches := by
  unfold mismatches
  cases (formatMessage call.args call.templated).1 <;> rfl

theorem Store.filter_records {debug : Value} {d : Delivery} {records : List Report}
    (h : s.recordOf debug d = .ok records) : records.filter (·.isOfEntry) = records := by
  have hrecords := recordOf_ok h
  split at hrecords
  · obtain ⟨event, -, rfl⟩ := hrecords
    rfl
  · rw [hrecords]
    rfl

namespace Dispatch

/-- The share of an admitted entry. -/
def share (nested : Call → Session Unit) (c : ContextRef) (l : Level) (a : AppenderRef) (call : Call)
    (s : Store) : Share :=
  match entryFields nested c l call s, (formatMessage call.args call.templated).2 with
  | .error _ _, _ => {}
  | .ok _ _, .error _ => { mismatches := call.mismatches }
  | .ok h s₁, .ok msg =>
    let d : Delivery := ⟨a, some c, .level l, s₁.supplied h, .text msg⟩
    match s₁.recordOf s.defaults.debug d with
    | .error _ => { mismatches := call.mismatches }
    | .ok records => ⟨call.mismatches, records, some d⟩

theorem receive_followUp_leaves (ctx : Option ContextRef) (level : Value) (msg : Text) (s : Store) :
    (do receive a ctx level h (.text msg); followUp l msg : Session Unit).leaves s =
      (receive a ctx level h (.text msg)).leaves s := by
  cases hr : receive a ctx level h (.text msg) s with
  | ok _ s₁ => rw [Session.leaves_congr (Session.run_seq_ok hr), followUp_leaves, Session.leaves_ok hr]
  | error f s₁ => rw [Session.leaves_error (Session.run_bind_error hr), Session.leaves_error hr]

/-- What an entry comes to once its fields have been made is its share. -/
theorem deliver_shares (hx : (entryFields nested c l call).leaves s = s₁) :
    s₁.Shares [share nested c l a call s] ((deliver nested c l a call).leaves s) := by
  unfold share
  cases hfields : entryFields nested c l call s with
  | error f s₁ =>
    obtain rfl := (Session.leaves_error hfields).symm.trans hx
    rw [Session.leaves_error (deliver_of_fields_error hfields)]
    exact .nothing s₁
  | ok h s₁ =>
    obtain rfl := (Session.leaves_ok hfields).symm.trans hx
    have hmismatch : s₁.Shares [{ mismatches := call.mismatches }]
        { s₁ with journal := s₁.journal ++ call.mismatches } :=
      ⟨(List.append_nil _).symm, rfl, by simp [Share.reports, call.filter_mismatches], fun hs => ⟨hs, rfl⟩⟩
    cases hm : (formatMessage call.args call.templated).2 with
    | error f =>
      rw [Session.leaves_error (deliver_of_mismatch hfields hm)]
      exact hmismatch
    | ok msg =>
      have hrun := deliver_run (a := a) rfl hfields hm
      dsimp only
      cases hr : s₁.recordOf s.defaults.debug ⟨a, some c, .level l, s₁.supplied h, .text msg⟩ with
      | error f =>
        rw [hr] at hrun
        rw [Session.leaves_error hrun]
        exact hmismatch
      | ok records =>
        rw [hr] at hrun
        dsimp only at hrun
        rw [Session.leaves_congr hrun, receive_followUp_leaves]
        -- The appender changes its sink and mappings, but neither the journal nor the list of deliveries.
        generalize hd : (⟨a, some c, .level l, s₁.supplied h, .text msg⟩ : Delivery) = d at hr
        have htake := receive_take a (some c) (.level l) h (.text msg) (s₁.noted (call.mismatches ++ records) d)
        rw [s₁.supplied_noted, hd] at htake
        obtain ⟨ms, as, out, hs₂, -⟩ :=
          receive_handled a (some c) (.level l) h (.text msg) (s₁.noted (call.mismatches ++ records) d)
        rw [hs₂] at htake ⊢
        refine ⟨rfl, htake, ?_, fun hs => ⟨hs, rfl⟩⟩
        simp [Store.noted, Share.reports, call.filter_mismatches, Store.filter_records hr]

end Dispatch

/-! ## The tree of dispatches -/

/-- The share of an entry: an entry that does not go on has none. -/
def Call.share (nested : Call → Session Unit) (call : Call) (s : Store) : Share :=
  match s.admission call.context call.level with
  | .admitted c l a => Dispatch.share nested c l a call s
  | _ => {}

/-- The entries that are sent while an entry is dispatched. -/
def Call.sends (nested : Call → Session Unit) (call : Call) (s : Store) : List (Call × Store) :=
  match s.admission call.context call.level with
  | .admitted c l _ => Dispatch.sends nested c l call s
  | _ => []

/-- The fields that a producer of an entry is given to work on. -/
def Call.given (call : Call) (s : Store) : List Handle :=
  match s.admission call.context call.level with
  | .admitted c _ _ =>
    match (s.sourceOf c).isContextual, Dispatch.explicitFields (s.sourceOf c) call.fields s with
    | true, .ok h _ => [h]
    | _, _ => []
  | _ => []

/-- One dispatch of a tree: the stores that it begins and ends with, how it ends, its share, and the fields
that the producers around it are working on. -/
structure Visit where
  call : Call
  before : Store
  after : Store
  outcome : Except Failure Unit
  share : Share
  around : List Handle

/-- The dispatch of an entry, with at most `depth` calls inside each other. -/
def Visit.of (caught : Tolerance) (depth : Nat) (around : List Handle) (call : Call) (s : Store) : Visit where
  call := call
  before := s
  after := (dispatchWithin caught depth call).leaves s
  outcome := (dispatchWithin caught depth call).outcome s
  share := match depth with
    | 0 => {}
    | depth + 1 => call.share (sentWithin caught depth) s
  around := around

/-- A dispatch with the dispatches inside it, in the order in which they are made. -/
inductive Tree
  | node (visit : Visit) (inner : List Tree)

namespace Tree

/-- The tree of all dispatches that take place while an entry is dispatched. -/
def of (caught : Tolerance) : Nat → List Handle → Call → Store → Tree
  | 0, around, call, s => .node (.of caught 0 around call s) []
  | depth + 1, around, call, s =>
    .node (.of caught (depth + 1) around call s) ((call.sends (sentWithin caught depth) s).map fun sent =>
      of caught depth (call.given s ++ around) sent.1 sent.2)

def visit : Tree → Visit
  | node v _ => v

/-- The dispatches of a tree in post-order: those inside a dispatch come before it. -/
def postorder : Tree → List Visit
  | node v inner => all inner ++ [v]
where
  /-- The dispatches of several trees, one tree after the other. -/
  all : List Tree → List Visit
    | [] => []
    | t :: ts => t.postorder ++ all ts

theorem postorder_all (ts : List Tree) : postorder.all ts = ts.flatMap postorder := by
  induction ts with
  | nil => rfl
  | cons t ts ih => rw [postorder.all, ih, List.flatMap_cons]

variable {depth : Nat} {around : List Handle}

theorem postorder_of_succ :
    (of caught (depth + 1) around call s).postorder =
      ((call.sends (sentWithin caught depth) s).flatMap fun sent =>
        (of caught depth (call.given s ++ around) sent.1 sent.2).postorder) ++
        [.of caught (depth + 1) around call s] := by
  rw [of, postorder, postorder_all, List.flatMap_map]

/-- What an entry hands on to those that are sent while it is dispatched holds in the whole tree. -/
theorem forall_postorder {Q : List Handle → Call → Store → Prop}
    (hsends : ∀ depth around call s, Q around call s → ∀ sent ∈ call.sends (sentWithin caught depth) s,
      Q (call.given s ++ around) sent.1 sent.2) (hroot : Q around call s) :
    ∀ v ∈ (of caught depth around call s).postorder,
      ∃ depth, v = .of caught depth v.around v.call v.before ∧ Q v.around v.call v.before := by
  induction depth generalizing around call s with
  | zero => exact List.forall_mem_singleton.2 ⟨0, rfl, hroot⟩
  | succ depth ih =>
    intro v hv
    rw [postorder_of_succ] at hv
    rcases List.mem_append.1 hv with hv | hv
    · obtain ⟨sent, hsent, hv⟩ := List.mem_flatMap.1 hv
      exact ih (hsends depth around call s hroot sent hsent) v hv
    · obtain rfl := List.mem_singleton.1 hv
      exact ⟨depth + 1, rfl, hroot⟩

end Tree

/-- What leads to an entry that is sent while another one is dispatched: the fields that a producer works on
are made, and then whatever holds of all that happens up to the store that the entry is sent from. -/
theorem Call.sends_reach {R : Store → Store → Prop} (hquiet : ∀ s s', s.Quiet s' → R s s')
    (htrans : ∀ s s' s'', R s s' → R s' s'' → R s s'') (hn : NestedPrograms nested)
    (hnested : ∀ sent : Call × Store, R sent.2 ((nested sent.1).leaves sent.2)) {sent : Call × Store}
    (hsent : sent ∈ call.sends nested s) :
    ∃ s₁ s₂, s.Quiet s₁ ∧ R s₁ s₂ ∧ s₂.SentFrom sent.1 sent.2 ∧
      ∀ h ∈ call.given s, ∃ m, h = .live m ∧ m.index = s.mappings.length ∧ ¬ s₁.Lacks m := by
  unfold Call.sends at hsent
  unfold Call.given
  cases hadm : s.admission call.context call.level with
  | refused => rw [hadm] at hsent; cases hsent
  | filtered => rw [hadm] at hsent; cases hsent
  | admitted c l a =>
    rw [hadm] at hsent
    dsimp only [Dispatch.sends] at hsent ⊢
    cases hx : Dispatch.explicitFields (s.sourceOf c) call.fields s with
    | error f s₁ => rw [hx] at hsent; cases hsent
    | ok explicit s₁ =>
      rw [hx] at hsent
      obtain ⟨hs₁, hexplicit⟩ :=
        (Dispatch.explicitFields_yields (Store.Quiet.calm_all s) (.refl s) _ _).ok hx
      obtain ⟨o, htrail, -⟩ := resolveSource_trails hn (s.sourceOf c)
        { context := some c, level := .level l, fields := explicit, args := call.args } (s := s₁)
      obtain ⟨s₂, hs₂, hfrom⟩ := htrail.reaches hquiet htrans (fun sent _ => hnested sent) sent hsent
      refine ⟨s₁, s₂, hs₁, hs₂, hfrom, ?_⟩
      cases hctx : (s.sourceOf c).isContextual with
      | false => exact fun h hh => absurd hh List.not_mem_nil
      | true =>
        rw [if_pos hctx] at hexplicit
        obtain ⟨m, rfl, -, hm, hlt, -⟩ := hexplicit
        exact List.forall_mem_singleton.2 ⟨m, rfl, hm, Nat.not_le.2 hlt⟩

/-- What an entry leaves, if those inside it leave what `give` says. -/
theorem dispatchWith_shares (hn : NestedPrograms nested) (give : Call × Store → List Share)
    (hgive : ∀ sent : Call × Store, sent.2.Shares (give sent) ((nested sent.1).leaves sent.2)) (call : Call)
    (s : Store) :
    s.Shares ((call.sends nested s).flatMap give ++ [call.share nested s])
      ((dispatchWith nested call).leaves s) := by
  have hrun := dispatchWith_run nested call s
  unfold Call.sends Call.share
  cases hadm : s.admission call.context call.level with
  | refused f =>
    rw [hadm] at hrun
    rw [Session.leaves_error hrun]
    exact .nothing s
  | filtered =>
    rw [hadm] at hrun
    rw [Session.leaves_ok hrun]
    exact .nothing s
  | admitted c l a =>
    rw [hadm] at hrun
    dsimp only at hrun
    rw [Session.leaves_congr hrun]
    obtain ⟨o, htrail, -⟩ := Dispatch.entryFields_trails hn c l call (s := s)
    have hinner := htrail.gathers (G := fun s xs s' => s.Shares xs s') (fun _ _ => Store.Quiet.shares)
      (fun _ _ _ _ _ => Store.Shares.trans) give fun sent _ => hgive sent
    exact hinner.trans (Dispatch.deliver_shares rfl)

/-- What is delivered, what the sinks keep of it and what is reported while an entry is dispatched are the
shares of its tree in post-order. -/
theorem dispatchWithin_shares (depth : Nat) (around : List Handle) (call : Call) (s : Store) :
    s.Shares ((Tree.of caught depth around call s).postorder.map (·.share))
      ((dispatchWithin caught depth call).leaves s) := by
  induction depth generalizing around call s with
  | zero => exact .nothing s
  | succ depth ih =>
    have hall := dispatchWith_shares (sentWithin_programs caught depth)
      (fun sent => (Tree.of caught depth (call.given s ++ around) sent.1 sent.2).postorder.map (·.share))
      (fun sent => by
        rw [sentWithin, Session.catching_leaves]
        exact ih (call.given s ++ around) sent.1 sent.2) call s
    rw [Tree.postorder_of_succ, List.map_append, List.map_flatMap]
    exact hall

end ContextLog
