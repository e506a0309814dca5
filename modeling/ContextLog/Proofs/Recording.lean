import ContextLog.Proofs.Nesting
/-!
# Contexts and records

A recording appender keeps two lists, one of contexts and one of records. It notes the context of each entry that it
is handed, but it has a record only of those whose fields can be copied: an entry whose fields cannot be copied raises
an error after its context has been noted. So the lists belong together, place by place, as long as there is no such
entry, and from the first one on they do not (`recording_kept`); to forget all entries mends that.
-/

namespace ContextLog

variable {caught : Tolerance} {depth : Nat} {s s' : Store} {r : AppenderRef} {ds : List Delivery}

/-! ## Moves -/

/-- What may be done that concerns appenders. -/
inductive Move
  /-- An appender is handed an entry directly. -/
  | append (a : AppenderRef) (ctx : Option ContextRef) (level : Value) (fields : Handle) (msg : Value)
  | dispatch (call : Call)
  /-- An appender forgets what it has kept. -/
  | clear (a : AppenderRef)

namespace Move

/-- Makes a move. -/
def perform (caught : Tolerance) (depth : Nat) : Move → Session Unit
  | append a ctx level fields msg => ContextLog.append a ctx level fields msg
  | dispatch call => dispatchWithin caught depth call
  | clear a => clearRecords a

/-- What an appender has been handed and not forgotten, after one more move. -/
def handed (caught : Tolerance) (depth : Nat) (r : AppenderRef) (s : Store) (ds : List Delivery) (move : Move) :
    List Delivery :=
  match move with
  | clear a => if a = r then [] else ds
  | move =>
    ds ++ ((((move.perform caught depth).leaves s).deliveries.drop s.deliveries.length).filter (·.appender = r))

end Move

namespace Store

/-- The store after some moves. An error is caught, and what has been done before it stays done. -/
def moved (caught : Tolerance) (depth : Nat) (s : Store) : List Move → Store
  | [] => s
  | move :: moves => ((move.perform caught depth).leaves s).moved caught depth moves

/-- What an appender has been handed and not forgotten, after some more moves. -/
def handedTo (caught : Tolerance) (depth : Nat) (r : AppenderRef) (s : Store) (ds : List Delivery) :
    List Move → List Delivery
  | [] => ds
  | move :: moves =>
    ((move.perform caught depth).leaves s).handedTo caught depth r (move.handed caught depth r s ds) moves

end Store

/-! ## What one move leaves -/

/-- A recording appender that has been handed these entries. -/
def Appender.recorder (ds : List Delivery) : Appender :=
  .recording (ds.map (·.context)) (ds.filterMap Delivery.record?)

theorem Appender.Kept.eq_recorder {a : Appender} {new : List Delivery} (h : (recorder ds).Kept new a) :
    a = recorder (ds ++ new) := by
  obtain ⟨hkind, hkeeps, hcontexts, hrecords⟩ := h
  rw [recorder, List.map_append, List.filterMap_append]
  cases a with
  | recording cs rs =>
    obtain rfl : cs = _ := hcontexts
    obtain rfl : rs = _ := hrecords
    rfl
  | editing edits cs rs =>
    have htype : "Mutating" = "RecordingAppender" := hkind.typeName
    exact absurd htype (by decide)
  | _ => cases hkeeps

/-- What is delivered to a recording appender and taken by it goes behind what it has. -/
theorem Store.recorder_of_taken {new : List Delivery} (h : s.appender r = .recorder ds)
    (hdeliveries : s'.deliveries = s.deliveries ++ new) (hsinks : s'.sinks = new.foldl Sinks.take s.sinks) :
    s'.appender r = .recorder (ds ++ (s'.deliveries.drop s.deliveries.length).filter (·.appender = r)) := by
  have hkeeps : (s.sinks.appender r).keepsRecords := by
    show (s.appender r).keepsRecords
    rw [h]
    rfl
  have htaken : (s.appender r).Kept _ (s'.appender r) := hsinks ▸ Sinks.takes_kept hkeeps new
  rw [hdeliveries, List.drop_left]
  exact (h ▸ htaken).eq_recorder

/-- An entry that is handed on directly is noted, and then the appender receives it. -/
theorem append_noted (a : AppenderRef) (ctx : Option ContextRef) (level : Value) (fields : Handle) (msg : Value)
    (s : Store) : append a ctx level fields msg s =
      receive a ctx level fields msg (s.noted [] ⟨a, ctx, level, s.supplied fields, msg⟩) := by
  have h := Dispatch.append_run (a := a) (s := s) (h := fields) ctx level msg []
  rwa [List.append_nil] at h

theorem append_leaves (a : AppenderRef) (ctx : Option ContextRef) (level : Value) (fields : Handle) (msg : Value)
    (s : Store) : ((append a ctx level fields msg).leaves s).deliveries =
        s.deliveries ++ [⟨a, ctx, level, s.supplied fields, msg⟩] ∧
      ((append a ctx level fields msg).leaves s).sinks = s.sinks.take ⟨a, ctx, level, s.supplied fields, msg⟩ := by
  rw [Session.leaves_congr (append_noted a ctx level fields msg s)]
  constructor
  · obtain ⟨ms, as, out, hs, -⟩ := receive_handled a ctx level fields msg
      (s.noted [] ⟨a, ctx, level, s.supplied fields, msg⟩)
    rw [hs]
    rfl
  · rw [receive_take, s.supplied_noted]
    rfl

/-- To make one appender forget what it has kept leaves the others as they are. -/
theorem clearRecords_leaves (h : s.appender r = .recorder ds) (a : AppenderRef) :
    ((clearRecords a).leaves s).appender r = .recorder (if a = r then [] else ds) := by
  have hrun : clearRecords a s =
      if (s.appender a).keepsRecords then
        .ok () { s with appenders := s.appenders.set a.index (s.appender a).clear }
      else .error (.noAttribute (s.appender a).typeName "clear") s := by
    unfold clearRecords
    rw [Session.run_bind_ok Session.run_get]
    cases (s.appender a).keepsRecords <;> rfl
  by_cases ha : a = r
  · subst ha
    have hne : s.appender a ≠ .plain .none := by
      rw [h]
      nofun
    rw [if_pos rfl]
    rw [h] at hrun
    rw [Session.leaves_ok hrun, ← h]
    refine (appender_received hne _).trans ?_
    rw [h]
    rfl
  · rw [if_neg ha, ← h]
    cases hkeeps : (s.appender a).keepsRecords with
    | true =>
      rw [if_pos hkeeps] at hrun
      rw [Session.leaves_ok hrun]
      exact appender_received_of_ne (Ne.symm ha) _
    | false =>
      rw [if_neg (by simp [hkeeps])] at hrun
      rw [Session.leaves_error hrun]

/-- One move hands a recording appender entries, or makes it forget those that it has been handed. -/
theorem Move.perform_recorder (h : s.appender r = .recorder ds) (move : Move) :
    ((move.perform caught depth).leaves s).appender r = .recorder (move.handed caught depth r s ds) := by
  cases move with
  | append a ctx level fields msg =>
    obtain ⟨hdeliveries, hsinks⟩ := append_leaves a ctx level fields msg s
    exact Store.recorder_of_taken h hdeliveries hsinks
  | dispatch call =>
    have hshares : s.Shares _ ((dispatchWithin caught depth call).leaves s) := dispatchWithin_shares depth [] call s
    exact Store.recorder_of_taken h hshares.deliveries hshares.sinks
  | clear a => exact clearRecords_leaves h a

theorem Store.moved_recorder (h : s.appender r = .recorder ds) (moves : List Move) :
    (s.moved caught depth moves).appender r = .recorder (s.handedTo caught depth r ds moves) := by
  induction moves generalizing s ds with
  | nil => exact h
  | cons move moves ih => exact ih (move.perform_recorder h)

/-- A recording appender raises an error if the fields of an entry cannot be copied, and only then. -/
theorem isOk_append_recorder (h : s.appender r = .recorder ds) (ctx : Option ContextRef) (level : Value)
    (fields : Handle) (msg : Value) : ((append r ctx level fields msg).outcome s).isOk =
      (Delivery.record? ⟨r, ctx, level, s.supplied fields, msg⟩).isSome := by
  have hreceive : receive r ctx level fields msg (s.noted [] ⟨r, ctx, level, s.supplied fields, msg⟩) =
      keepRecord .recording r ctx level fields msg (s.noted [] ⟨r, ctx, level, s.supplied fields, msg⟩) := by
    have hnoted : (s.noted [] ⟨r, ctx, level, s.supplied fields, msg⟩).appender r = .recorder ds := h
    unfold receive
    rw [Session.run_bind_ok Session.run_get, hnoted]
    rfl
  have hkept := keepRecord_run .recording r ctx level fields msg
    (s.noted [] ⟨r, ctx, level, s.supplied fields, msg⟩)
  rw [s.supplied_noted] at hkept
  rw [Session.outcome_congr ((append_noted r ctx level fields msg s).trans hreceive)]
  unfold Delivery.record?
  dsimp only
  cases hcopy : (s.supplied fields).copy with
  | ok kept =>
    rw [hcopy] at hkept
    rw [Session.outcome_ok hkept]
    rfl
  | error f =>
    rw [hcopy] at hkept
    rw [Session.outcome_error hkept]
    rfl

/-! ## The law -/

/-- What a recording appender keeps of the entries that it has been handed. -/
structure Store.RecordsOf (s : Store) (r : AppenderRef) (ds : List Delivery) : Prop where
  contexts : (s.appender r).contexts = ds.map (·.context)
  records : (s.appender r).records = ds.filterMap Delivery.record?
  /-- There are as many records as contexts if the fields of all the entries could be copied, and only then. -/
  aligned : (s.appender r).records.length = (s.appender r).contexts.length ↔ ∀ d ∈ ds, d.record?.isSome
  /-- If they could, each context is the one that the record in its place was appended with. -/
  paired : (∀ d ∈ ds, d.record?.isSome) → ∀ (i : Nat) record, (s.appender r).records[i]? = some record →
    ∃ d : Delivery, ds[i]? = some d ∧ d.record? = some record ∧ (s.appender r).contexts[i]? = some d.context
  /-- An entry that is appended next has its context noted. If its fields cannot be copied, this raises an error and
  there is no record of it. -/
  next : ∀ ctx level fields msg,
    ((append r ctx level fields msg).outcome s).isOk =
        (Delivery.record? ⟨r, ctx, level, s.supplied fields, msg⟩).isSome ∧
      (((append r ctx level fields msg).leaves s).appender r).contexts = (s.appender r).contexts ++ [ctx] ∧
      (((append r ctx level fields msg).leaves s).appender r).records = (s.appender r).records ++
        (Delivery.record? ⟨r, ctx, level, s.supplied fields, msg⟩).toList
  /-- Once it has forgotten its entries, nothing is left of them. -/
  cleared : ((clearRecords r).leaves s).appender r = .recording [] []

/-- Where nothing is left out, what is made of an item stands in its place. -/
theorem getElem?_filterMap_of_isSome {α β : Type} {f : α → Option β} {xs : List α} (h : ∀ x ∈ xs, (f x).isSome)
    (i : Nat) : (xs.filterMap f)[i]? = xs[i]?.bind f := by
  induction xs generalizing i with
  | nil => rfl
  | cons x xs ih =>
    obtain ⟨hx, hxs⟩ := List.forall_mem_cons.1 h
    obtain ⟨y, hy⟩ := Option.isSome_iff_exists.1 hx
    rw [List.filterMap_cons_some hy]
    cases i with
    | zero => exact hy.symm
    | succ i => exact ih hxs i

/-- After all that a recording appender may be handed, directly or by entries that are dispatched, and may be made to
forget, it has the contexts of the entries that it has been handed since, and the records of those whose fields can be
copied. -/
theorem recording_kept (hr : s.appender r = .recording [] []) (caught : Tolerance) (depth : Nat) (moves : List Move) :
    (s.moved caught depth moves).RecordsOf r (s.handedTo caught depth r [] moves) := by
  have hrecorder : (s.moved caught depth moves).appender r = .recorder (s.handedTo caught depth r [] moves) :=
    Store.moved_recorder hr moves
  generalize s.moved caught depth moves = s' at hrecorder ⊢
  generalize s.handedTo caught depth r [] moves = ds at hrecorder ⊢
  have hcontexts : (s'.appender r).contexts = ds.map (·.context) := by rw [hrecorder]; rfl
  have hrecords : (s'.appender r).records = ds.filterMap Delivery.record? := by rw [hrecorder]; rfl
  constructor
  case contexts => exact hcontexts
  case records => exact hrecords
  case aligned => rw [hcontexts, hrecords, List.length_map, List.filterMap_length_eq_length]
  case paired =>
    intro hall i record hrecord
    rw [hrecords, getElem?_filterMap_of_isSome hall] at hrecord
    obtain ⟨d, hd, hkept⟩ := Option.bind_eq_some_iff.1 hrecord
    exact ⟨d, hd, hkept, by rw [hcontexts, List.getElem?_map, hd]; rfl⟩
  case next =>
    intro ctx level fields msg
    obtain ⟨hdeliveries, hsinks⟩ := append_leaves r ctx level fields msg s'
    have htaken : ((append r ctx level fields msg).leaves s').appender r =
        .recorder (ds ++ [⟨r, ctx, level, s'.supplied fields, msg⟩]) := by
      have h := Store.recorder_of_taken hrecorder hdeliveries hsinks
      rwa [hdeliveries, List.drop_left, List.filter_cons_of_pos (by simp), List.filter_nil] at h
    refine ⟨isOk_append_recorder hrecorder ctx level fields msg, ?_, ?_⟩
    · rw [htaken, hcontexts, Appender.recorder]
      exact List.map_append
    · have hlast : [(⟨r, ctx, level, s'.supplied fields, msg⟩ : Delivery)].filterMap Delivery.record? =
          (Delivery.record? ⟨r, ctx, level, s'.supplied fields, msg⟩).toList := by
        cases hrecord : Delivery.record? ⟨r, ctx, level, s'.supplied fields, msg⟩ <;> simp [hrecord]
      rw [htaken, hrecords, ← hlast]
      exact List.filterMap_append
  case cleared =>
    have hcleared := clearRecords_leaves hrecorder r
    rw [if_pos rfl] at hcleared
    exact hcleared

/-- A store with two contexts for the same appender, which keeps entries. -/
def twoContexts : Store where
  contexts := [{}, { appender := some ⟨0⟩ }, { appender := some ⟨0⟩ }]
  appenders := [.recording [] []]

/-- An entry whose fields cannot be copied comes before all entries are forgotten, and another one behind. -/
def misgivenMoves : List Move :=
  [.append ⟨0⟩ (some ⟨1⟩) (.level .info) (.other (.int 5)) (.str "x"),
    .clear ⟨0⟩,
    .dispatch { context := some ⟨2⟩, level := .level .error, args := [.str "m"] },
    .append ⟨0⟩ none (.level .info) (.other (.int 5)) (.str "x"),
    .append ⟨0⟩ (some ⟨1⟩) (.level .warn) .vacant (.str "n")]

theorem recording_kept_misgivenMoves : twoContexts.appender ⟨0⟩ = .recording [] [] ∧
    (twoContexts.moved .strict 2 misgivenMoves).RecordsOf ⟨0⟩
      (twoContexts.handedTo .strict 2 ⟨0⟩ [] misgivenMoves) ∧
    ((twoContexts.handedTo .strict 2 ⟨0⟩ [] misgivenMoves).map fun d => (d.context, d.record?.isSome)) =
      [(some ⟨2⟩, true), (none, false), (some ⟨1⟩, true)] :=
  ⟨rfl, recording_kept rfl .strict 2 misgivenMoves, rfl⟩

/-- Once an append has raised an error, the record in the first place was appended with the second context. -/
theorem contexts_misplaced :
    let s := twoContexts.moved .strict 2
      [.append ⟨0⟩ (some ⟨1⟩) (.level .info) (.other (.int 5)) (.str "x"),
        .append ⟨0⟩ (some ⟨2⟩) (.level .info) .vacant (.str "m")]
    (append ⟨0⟩ (some ⟨1⟩) (.level .info) (.other (.int 5)) (.str "x")).outcome twoContexts =
        .error (.mapping (.notIterable "int")) ∧
      (s.appender ⟨0⟩).records = [⟨.level .info, .empty, .str "m"⟩] ∧
      (s.appender ⟨0⟩).contexts = [some ⟨1⟩, some ⟨2⟩] :=
  ⟨rfl, rfl, rfl⟩

end ContextLog
