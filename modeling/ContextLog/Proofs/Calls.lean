import ContextLog.Proofs.Counting
import ContextLog.Proofs.Merging
/-!
# How often producers are called

A producer is called once for each entry that calls it, and for no other one (`producer_called_once`): not for
an entry that is filtered or refused, and not again when the producer itself, the message or the appender fails
later. An entry that is let through by a context carrying the producer calls it if its own fields are nothing or
a mapping; with other ones it may fail before it does. `Call.begun` lists the dispatches that take place while
an entry is dispatched in the order in which they begin, each with the store that it begins with. The host may
do whatever it likes in between (`Turn`): it derives contexts, changes the defaults, and goes on after every
failure.
-/

namespace ContextLog

variable {caught : Tolerance} {depth : Nat} {nested : Call → Session Unit} {s s₁ s' s'' : Store} {p q : ProducerRef}
  {c : ContextRef} {l : Level} {a : AppenderRef} {call : Call} {give : Call × Store → List (Call × Store)}

/-! ## Dispatches and runs -/

/-- The dispatches that take place while an entry is dispatched, in the order in which they begin, each with
the store that it begins with. A call that would be nested too deeply begins no dispatch. -/
def Call.begun (caught : Tolerance) : Nat → Call → Store → List (Call × Store)
  | 0, _, _ => []
  | depth + 1, call, s =>
    (call, s) :: (call.sends (sentWithin caught depth) s).flatMap fun sent => begun caught depth sent.1 sent.2

theorem dispatchWith_counts (hn : NestedCounts nested p give) (hp : p.index < s.producers.length)
    (call : Call) : s.Counts p ((call, s) :: (call.sends nested s).flatMap give)
      ((dispatchWith nested call).leaves s) := by
  have hrun := dispatchWith_run nested call s
  -- An entry that does not go on calls nobody.
  have hno : call.calls s p = false → s.Counts p [(call, s)] s := fun hcalls =>
    .own (by rw [hcalls]; exact .still rfl)
  unfold Call.sends
  cases hadm : s.admission call.context call.level with
  | refused f =>
    rw [hadm] at hrun
    rw [Session.leaves_error hrun]
    exact hno (by unfold Call.calls; rw [hadm])
  | filtered =>
    rw [hadm] at hrun
    rw [Session.leaves_ok hrun]
    exact hno (by unfold Call.calls; rw [hadm])
  | admitted c l a =>
    rw [hadm] at hrun
    dsimp only at hrun
    rw [Session.leaves_congr hrun]
    exact (Dispatch.entryFields_counts hn hp hadm).then_still (Dispatch.deliver_still rfl)

theorem dispatchWithin_counts (depth : Nat) (call : Call) (hp : p.index < s.producers.length) :
    s.Counts p (call.begun caught depth s) ((dispatchWithin caught depth call).leaves s) := by
  induction depth generalizing call s with
  | zero => exact .still rfl
  | succ depth ih =>
    have hsent : NestedCounts (sentWithin caught depth) p fun sent => sent.1.begun caught depth sent.2 := by
      intro sent hsent
      rw [sentWithin, Session.catching_leaves]
      exact ih sent.1 hsent
    exact dispatchWith_counts hsent hp call

/-- A way to derive a context from another one. -/
inductive Derivation
  | level (v : Value)
  | appender (a : Option AppenderRef)
  | source (object : Source)
  | value (key value : Value)

/-- The context that is derived, if what it is to have is fit for that. -/
def Derivation.apply (c : Context) : Derivation → Session Context
  | level v => do return c.withLevel (← Session.lift (Level.ofValue v))
  | appender a => return c.withAppender a
  | source object => do return c.withSource (← asSource object)
  | value key v => Session.lift (c.withValue key v)

/-- What a host does next: it sends an entry, adjusts the defaults, or derives a context. -/
inductive Turn
  | dispatch (call : Call)
  | adjust (adjustment : Adjustment)
  | derive (c : ContextRef) (derivation : Derivation)

namespace Turn

/-- Takes a turn. -/
def perform (caught : Tolerance) (depth : Nat) : Turn → Session Unit
  | dispatch call => dispatchWithin caught depth call
  | adjust adjustment => adjustment.perform
  | derive c derivation => do
    let _ ← Session.newContext (← derivation.apply ((← get).context c))

/-- The dispatches that begin in a turn. -/
def begun (caught : Tolerance) (depth : Nat) (s : Store) : Turn → List (Call × Store)
  | dispatch call => call.begun caught depth s
  | _ => []

end Turn

namespace Store

/-- The store after some turns. A failure is caught, and what has been done before it stays done. -/
def through (caught : Tolerance) (depth : Nat) (s : Store) (turns : List Turn) : Store :=
  turns.foldl (fun s turn => (turn.perform caught depth).leaves s) s

/-- The dispatches that begin in some turns, in order. -/
def begun (caught : Tolerance) (depth : Nat) (s : Store) : List Turn → List (Call × Store)
  | [] => []
  | turn :: turns =>
    turn.begun caught depth s ++ begun caught depth ((turn.perform caught depth).leaves s) turns

end Store

theorem Adjustment.perform_isStill (adjustment : Adjustment) : adjustment.perform.IsStill := by
  cases adjustment with
  | configure changes => exact configure_isStill changes
  | reset environment => exact resetDefaults_isStill environment

theorem Derivation.apply_roomy {I : Store → Prop} (hI : Store.Roomy I) (c : Context) (derivation : Derivation) :
    (derivation.apply c).Keeps I := by
  cases derivation with
  | level v => exact .bind (.lift _) fun _ => .pure _
  | appender a => exact .pure _
  | source object => exact .bind (asSource_roomy hI object) fun _ => .pure _
  | value key v => exact .lift _

/-- To derive a context makes a context and mappings, and does nothing else. -/
theorem Turn.derive_keeps {I : Store → Prop} (hI : Store.Roomy I)
    (hnew : ∀ s c, I s → I { s with contexts := s.contexts ++ [c] }) (c : ContextRef) (derivation : Derivation) :
    (Turn.perform caught depth (.derive c derivation)).Keeps I := by
  refine .get fun s hs => ?_
  refine Session.Keeps.bind (derivation.apply_roomy hI (s.context c)) (fun c' => ?_) s hs
  exact fun s hs => ⟨hnew s c' hs, trivial⟩

theorem Turn.perform_counts (depth : Nat) (turn : Turn) (hp : p.index < s.producers.length) :
    s.Counts p (turn.begun caught depth s) ((turn.perform caught depth).leaves s) := by
  cases turn with
  | dispatch call => exact dispatchWithin_counts depth call hp
  | adjust adjustment => exact .still (adjustment.perform_isStill.leaves s)
  | derive c derivation =>
    have hstill : (Turn.perform caught depth (.derive c derivation)).IsStill := fun ps =>
      derive_keeps (fun _ _ hs => hs) (fun _ _ hs => hs) c derivation
    exact .still (hstill.leaves s)

/-- Along every run a producer is called once for each dispatch that calls it. -/
theorem Store.through_counts (depth : Nat) (turns : List Turn) (hp : p.index < s.producers.length) :
    s.Counts p (s.begun caught depth turns) (s.through caught depth turns) := by
  induction turns generalizing s with
  | nil => exact .still rfl
  | cons turn turns ih =>
    have hturn : s.Counts p (turn.begun caught depth s) ((turn.perform caught depth).leaves s) :=
      turn.perform_counts depth hp
    exact hturn.trans (ih (hturn.total.room ▸ hp))

/-! ## A producer that gives its own number -/

theorem Produce.run_callCount {key : Value} (hkey : key.mutableType? = none) (p : ProducerRef)
    (scope : Scope) (s : Store) :
    run nested p scope .empty [.callCount key] s = .ok (.live ⟨s.mappings.length⟩)
      { s with mappings := s.mappings ++ [Fields.empty.set key (.int (s.producer p).calls)] } := by
  have hcheck : Session.checkKey key s = .ok () s := by
    unfold Session.checkKey
    rw [hkey]
    rfl
  have hact : act nested p scope .empty (.callCount key) s =
      .ok (Fields.empty.set key (.int (s.producer p).calls)) s := Session.run_seq_ok hcheck
  exact Session.run_bind_ok hact

/-- A source that calls such a producer gives the number, whatever the entry is. -/
theorem resolveSource_callCount {key : Value} (hkey : key.mutableType? = none) (ht : s.takes p 0)
    (hprogram : (s.producer p).program = [.callCount key]) (scope : Scope) :
    ∃ m s', resolveSource nested (.lazy (.producer p)) scope s = .ok (.live m) s' ∧
      s'.mapping m = Fields.empty.set key (.int ((s.counted p).producer p).calls) :=
  ⟨_, _, (Produce.invoke_of_takes ht {}).trans (hprogram ▸ Produce.run_callCount hkey p {} (s.counted p)),
    Store.mapping_allotted (s.counted p) _⟩

theorem Fields.get?_empty_set (key v : Value) : (Fields.empty.set key v).get? key = some v := by
  have hsame : key.SameKey key := rfl
  rw [get?_set, if_pos hsame]

/-- The fields of an entry whose context carries such a producer hold the number, whatever else they hold. -/
theorem Dispatch.entryFields_callCount {key : Value} (hkey : key.mutableType? = none)
    (hsource : s.sourceOf c = .lazy (.producer p)) (ht : s.takes p 0)
    (hprogram : (s.producer p).program = [.callCount key]) (hr : (s.supplied call.fields).IsRegular) :
    ∃ h s' f, entryFields nested c l call s = .ok h s' ∧ s'.supplied h = .fields f ∧
      f.get? key = some (.int ((s.counted p).producer p).calls) := by
  obtain ⟨own, hx, -⟩ := explicitFields_plain (rfl : Source.isContextual (.lazy (.producer p)) = false) hr
  obtain ⟨m, s₁, hresolve, hgiven⟩ : ∃ m s₁, resolveSource nested (.lazy (.producer p))
      { context := some c, level := .level l, fields := own, args := call.args } s = .ok (.live m) s₁ ∧ _ :=
    resolveSource_callCount hkey ht hprogram _
  -- Both sides of the fields are mappings, and what the producer gives goes over what was there.
  obtain ⟨g, hg⟩ := explicitFields_isMapping hr hx s₁
  have hproduced : s₁.supplied (.live m) = .fields (Fields.empty.set key (.int ((s.counted p).producer p).calls)) :=
    congrArg Supplied.fields hgiven
  obtain ⟨side, h, s', hm, -, hh⟩ := mergeHandles_mappings hg hproduced
  refine ⟨h, s', _, ?_, hh, ?_⟩
  · unfold entryFields
    rw [Session.run_bind_ok Session.run_get, hsource, Session.run_bind_ok hx]
    unfold resolveFields
    rw [if_neg (by simp [Source.isAbsent]), Session.run_bind_ok hresolve]
    exact Session.run_bind_ok hm
  · rw [Fields.get?_overlay, Fields.get?_empty_set]
    rfl

/-! ## The law -/

/-- The number of the call that comes after some dispatches. -/
def Store.callNumber (s : Store) (p : ProducerRef) (earlier : List (Call × Store)) : Nat :=
  (s.producer p).calls + earlier.countP (fun e => e.1.calls e.2 p) + 1

/-- What a run does with a producer, whose dispatches are listed in the order in which they begin. -/
structure Store.CalledOnce (s : Store) (p : ProducerRef) (es : List (Call × Store)) (s' : Store) : Prop where
  /-- The producer is called once for each dispatch that calls it. -/
  calls : (s'.producer p).calls = (s.producer p).calls + es.countP fun e => e.1.calls e.2 p
  /-- Of the entries with nothing or a mapping as fields of their own these are all that are let through by a
  context carrying the producer. -/
  regular : ∀ e ∈ es, (e.2.supplied e.1.fields).IsRegular → (e.1.calls e.2 p = true ↔ e.1.Engages e.2 p)
  /-- If it is a lazy one that gives the number of its call, then each dispatch that is let through gets its own
  number, one more than there were calls before it, and with such fields it goes on with it. -/
  numbers : ∀ key, key.mutableType? = none → (s.producer p).program = [.callCount key] →
    ∀ earlier call b later, es = earlier ++ (call, b) :: later → ∀ c l a, b.LetsThrough call c l a →
      b.sourceOf c = .lazy (.producer p) → b.takes p 0 → ∀ nested,
        (∀ scope, ∃ m b', resolveSource nested (b.sourceOf c) scope b = .ok (.live m) b' ∧
          (b'.mapping m).get? key = some (.int (s.callNumber p earlier))) ∧
        ((b.supplied call.fields).IsRegular →
          ∃ h b' f, Dispatch.entryFields nested c l call b = .ok h b' ∧ b'.supplied h = .fields f ∧
            f.get? key = some (.int (s.callNumber p earlier)))

/-- On every run of a host that catches all failures, a producer is called once for each entry that calls it,
whatever becomes of the entry then. -/
theorem producer_called_once (hp : p.index < s.producers.length) (caught : Tolerance) (depth : Nat)
    (turns : List Turn) :
    s.CalledOnce p (s.begun caught depth turns) (s.through caught depth turns) := by
  have hcounts : s.Counts p (s.begun caught depth turns) (s.through caught depth turns) :=
    Store.through_counts depth turns hp
  refine ⟨?_, fun e _ hr => Call.calls_iff_engages hr, ?_⟩
  · rw [hcounts.total.producer]
    rfl
  · intro key hkey hprogram earlier call b later hes c l a hlets hsource ht nested
    have hb := hcounts.before earlier (call, b) later hes
    have hprogram' : (b.producer p).program = [.callCount key] := by rw [hb.producer]; exact hprogram
    have hnumber : ((b.counted p).producer p).calls = s.callNumber p earlier := by
      rw [Store.producer_counted (hb.room ▸ hp), hb.producer]
      rfl
    refine ⟨fun scope => ?_, fun hr => ?_⟩
    · obtain ⟨m, b', hx, hm⟩ : ∃ m b', resolveSource nested (.lazy (.producer p)) scope b = .ok (.live m) b' ∧
          b'.mapping m = Fields.empty.set key (.int ((b.counted p).producer p).calls) :=
        resolveSource_callCount hkey ht hprogram' scope
      rw [hsource, ← hnumber]
      exact ⟨m, b', hx, by rw [hm, Fields.get?_empty_set]⟩
    · rw [← hnumber]
      exact Dispatch.entryFields_callCount hkey hsource ht hprogram' hr

/-- A store with a context for warnings whose source gives the number of its call, and with an appender that
keeps entries. -/
def countingSource : Store where
  contexts := [{}, { source := .lazy (.producer ⟨0⟩), level := .level .warn }]
  producers := [{
    signature := some []
    program := [.callCount (.str "n")]
    typeName := "function"
    representation := "<function>" }]
  appenders := [.recording [] []]
  defaults := { appender := some ⟨0⟩ }

/-- A panic, an entry that is filtered, and one without a level; a message that cannot be made through a
context with the same source and another threshold; an entry through one with another source, whose fields
are no mapping; and one that no appender is left for. -/
def countedTurns : List Turn :=
  [.dispatch { context := some ⟨1⟩, level := .level .panic, args := [.str "down"] },
    .dispatch { context := some ⟨1⟩, level := .level .info },
    .dispatch { context := some ⟨1⟩, level := .str "loud" },
    .derive ⟨1⟩ (.level (.level .info)),
    .dispatch {
      context := some ⟨2⟩
      level := .int 4
      args := [.explosive "Point" "<point>" 0 (.error .value 0 [] [])] },
    .derive ⟨2⟩ (.source (.value (.dict [(.str "user", .str "ada")]))),
    .dispatch { context := some ⟨3⟩, level := .level .error, fields := .other (.int 5) },
    .adjust (.configure [.appender none]),
    .dispatch { context := some ⟨1⟩, level := .level .error, args := [.str "lost"] }]

theorem producer_called_once_countingSource :
    countingSource.CalledOnce ⟨0⟩ (countingSource.begun .strict 2 countedTurns)
        (countingSource.through .strict 2 countedTurns) ∧
      ((countingSource.through .strict 2 countedTurns).producer ⟨0⟩).calls = 2 :=
  ⟨producer_called_once (by decide) .strict 2 countedTurns, by decide +kernel⟩

/-- A store with a context whose source may change the fields of an entry, and with an appender that keeps entries. -/
def copyingSource : Store where
  contexts := [{}, { source := .contextual (.producer ⟨0⟩) }]
  producers := [{ signature := none, program := [], typeName := "function", representation := "<function>" }]
  appenders := [.recording [] []]
  defaults := { appender := some ⟨0⟩ }

/-- An entry with the number 5 in place of its fields. -/
def unreadableTurns : List Turn :=
  [.dispatch { context := some ⟨1⟩, level := .level .error, fields := .other (.int 5), args := [.str "m"] }]

/-- Such an entry is let through by a context that carries the producer, and the producer is not called: there is
nothing to be copied for it. -/
theorem fields_without_call :
    (copyingSource.begun .strict 2 unreadableTurns).countP (fun e => e.1.Engages e.2 ⟨0⟩) = 1 ∧
      ((copyingSource.through .strict 2 unreadableTurns).producer ⟨0⟩).calls = 0 := by
  decide +kernel

end ContextLog
