import ContextLog.Proofs.Calls
import ContextLog.Proofs.Parallel
/-!
# When the defaults are read

A source may change the defaults while it makes the fields of an entry. The entry itself is decided by then: what
is left of it once it has its fields (`Dispatch.conclude`) is the same whatever the defaults have become
(`Dispatch.conclude_redefined`). `Call.history` lists what happens in a run in its order, dispatches that begin
and changes of the defaults alike, those inside a source among them. Every dispatch begins with the defaults as
all the changes before it have left them, and it is decided by these (`defaults_read_once`).
-/

namespace ContextLog

open Session

variable {caught : Tolerance} {depth : Nat} {nested : Call → Session Unit} {s s₁ s' : Store} {c : ContextRef}
  {l : Level} {a : AppenderRef} {call : Call} {h : Handle}

/-! ## What is left of an entry once it has its fields -/

/-- What is left of an entry once it has its fields: its message, its record, its delivery and what follows. -/
def Dispatch.conclude (debug : Value) (c : ContextRef) (level : Level) (a : AppenderRef) (call : Call)
    (fields : Handle) : Session Unit := do
  let msg ← message call.args call.templated
  handOver debug c level a fields msg
  followUp level msg

/-- The second store is the first one with other defaults. -/
def Store.Redefined (d : Defaults) (s s' : Store) : Prop := s' = { s with defaults := d }

namespace Store.Redefined

variable {d : Defaults}

theorem mirrored : Store.Mirrored Eq (Store.Redefined d) where
  mapping hs hm := by rw [hs, hm]; rfl
  edited f hs hm := by rw [hs, hm]; rfl

theorem attended : Store.Attended (Store.Redefined d) where
  reported _ hs := by rw [hs]; rfl
  delivered _ hs := by rw [hs]; rfl
  worker hs := by rw [hs]
  stdout hs := by rw [hs]
  stderr hs := by rw [hs]

theorem shared (a : AppenderRef) : Store.Shared a (Store.Redefined d) where
  appender hs := by rw [hs]; rfl
  received _ hs := by rw [hs]; rfl
  printed {s s' channel channel'} line hs ho ho' := by
    subst hs
    obtain rfl : channel = channel' := Option.some.inj (ho.symm.trans ho')
    rfl

end Store.Redefined

namespace Dispatch

theorem conclude_abreast (d : Defaults) (debug : Value) (c : ContextRef) (l : Level) (a : AppenderRef)
    (call : Call) (h : Handle) :
    Abreast (Store.Redefined d) Eq (conclude debug c l a call h) (conclude debug c l a call h) := by
  have hF := Store.Redefined.attended (d := d)
  refine .bind (A := Eq) (.bind (report_abreast hF _) fun _ _ _ => .lift _) fun msg _ hmsg => ?_
  subst hmsg
  have hh : h.Tied Eq h := .refl fun _ _ => rfl
  have hover := handOver_abreast Store.Redefined.mirrored hF (Store.Redefined.shared a) hh debug c l msg
  exact .bind hover fun _ _ _ => followUp_abreast hF l msg

/-- What is left of an entry neither looks at the defaults nor changes them. -/
theorem conclude_redefined (d : Defaults) (debug : Value) (c : ContextRef) (l : Level) (a : AppenderRef)
    (call : Call) (h : Handle) (s : Store) :
    (conclude debug c l a call h).outcome { s with defaults := d } =
        (conclude debug c l a call h).outcome s ∧
      (conclude debug c l a call h).leaves { s with defaults := d } =
        { (conclude debug c l a call h).leaves s with defaults := d } := by
  have hends := conclude_abreast d debug c l a call h (show Store.Redefined d s { s with defaults := d } from rfl)
  exact ⟨hends.outcome, hends.leaves⟩

theorem conclude_defaults (debug : Value) (c : ContextRef) (l : Level) (a : AppenderRef) (call : Call)
    (h : Handle) (s : Store) : ((conclude debug c l a call h).leaves s).defaults = s.defaults := by
  have hsame : (conclude debug c l a call h).leaves s =
      { (conclude debug c l a call h).leaves s with defaults := s.defaults } :=
    (conclude_redefined s.defaults debug c l a call h s).2
  rw [hsame]

/-- Once an entry has its fields, the defaults may be any. -/
theorem deliver_conclude (hx : entryFields nested c l call s = .ok h s₁) :
    deliver nested c l a call s = conclude s.defaults.debug c l a call h s₁ := deliver_of_fields hx

end Dispatch

/-! ## What happens in a run -/

/-- What happens in a run as far as the defaults are concerned: a dispatch begins, with a store, or the defaults
are changed. -/
inductive Moment
  | begins (call : Call) (s : Store)
  | adjusts (adjustment : Adjustment)

/-- The dispatch that begins. -/
def Moment.begun? : Moment → Option (Call × Store)
  | begins call s => some (call, s)
  | adjusts _ => none

/-- The change that an action makes to the defaults, if it makes one. -/
def Action.adjustment? : Action → Option Adjustment
  | .configure changes => some (.configure changes)
  | .reset environment => some (.reset environment)
  | _ => none

namespace Produce

/-- The actions of a program that are run, each with the store that it starts from. -/
def steps (nested : Call → Session Unit) (p : ProducerRef) (scope : Scope) (output : Fields) :
    List Action → Store → List (Action × Store)
  | [], _ | .giveNothing :: _, _ | .giveFields :: _, _ => []
  | action :: rest, s =>
    (action, s) :: match act nested p scope output action s with
      | .ok output s' => steps nested p scope output rest s'
      | .error _ _ => []

/-- The actions that are run when what a source holds is called. -/
def invokedSteps (nested : Call → Session Unit) (of : Source) (count : Nat) (scope : Scope) (s : Store) :
    List (Action × Store) :=
  match of with
  | .producer p =>
    if s.takes p count then steps nested p scope .empty (s.producer p).program (s.counted p) else []
  | _ => []

/-- What comes of one action that is run, if an entry that is sent comes to what `give` says. -/
def moments (give : Call × Store → List Moment) (step : Action × Store) : List Moment :=
  step.1.adjustment?.toList.map .adjusts ++ (sent step.1 step.2).flatMap give

end Produce

/-- The actions that are run while a source makes its fields. -/
def Source.steps (nested : Call → Session Unit) (scope : Scope) (s : Store) : Source → List (Action × Store)
  | .lazy of => Produce.invokedSteps nested of 0 {} s
  | .contextual of => Produce.invokedSteps nested of 4 scope s
  | _ => []

/-- The actions that are run while an entry is dispatched, without those of entries inside it. -/
def Call.steps (nested : Call → Session Unit) (call : Call) (s : Store) : List (Action × Store) :=
  match s.admission call.context call.level with
  | .admitted c l _ =>
    match Dispatch.explicitFields (s.sourceOf c) call.fields s with
    | .ok explicit s₁ => (s.sourceOf c).steps nested
        { context := some c, level := .level l, fields := explicit, args := call.args } s₁
    | .error _ _ => []
  | _ => []

/-- What happens while an entry is dispatched, in its order: the dispatch begins, and then comes what its source
does, with all that happens inside the entries that it sends. -/
def Call.history (caught : Tolerance) : Nat → Call → Store → List Moment
  | 0, _, _ => []
  | depth + 1, call, s =>
    .begins call s :: (call.steps (sentWithin caught depth) s).flatMap
      (Produce.moments fun sent => history caught depth sent.1 sent.2)

/-- What happens in a turn of a host. -/
def Turn.history (caught : Tolerance) (depth : Nat) (s : Store) : Turn → List Moment
  | dispatch call => call.history caught depth s
  | adjust adjustment => [.adjusts adjustment]
  | derive _ _ => []

/-- What happens in some turns, in order. -/
def Store.history (caught : Tolerance) (depth : Nat) (s : Store) : List Turn → List Moment
  | [] => []
  | turn :: turns =>
    turn.history caught depth s ++ history caught depth ((turn.perform caught depth).leaves s) turns

/-! ## The dispatches of a history -/

namespace Produce

theorem sends_eq (p : ProducerRef) (scope : Scope) (output : Fields) (program : List Action) (s : Store) :
    sends nested p scope output program s =
      (steps nested p scope output program s).flatMap fun step => sent step.1 step.2 := by
  induction program generalizing output s with
  | nil => rfl
  | cons action rest ih =>
    have hgoes : (sent action s ++ match act nested p scope output action s with
          | .ok output s' => sends nested p scope output rest s'
          | .error _ _ => []) =
        ((action, s) :: match act nested p scope output action s with
          | .ok output s' => steps nested p scope output rest s'
          | .error _ _ => []).flatMap fun step => sent step.1 step.2 := by
      rw [List.flatMap_cons]
      cases act nested p scope output action s with
      | ok out s' => exact congrArg (sent action s ++ ·) (ih out s')
      | error f s' => rfl
    cases action with
    | giveNothing => rfl
    | giveFields => rfl
    | _ => exact hgoes

theorem invoked_eq (of : Source) (count : Nat) (scope : Scope) (s : Store) :
    invoked nested of count scope s =
      (invokedSteps nested of count scope s).flatMap fun step => sent step.1 step.2 := by
  cases of with
  | producer p =>
    unfold invoked invokedSteps
    dsimp only
    split
    · exact sends_eq p scope .empty _ _
    · rfl
  | _ => rfl

end Produce

/-- The entries that are sent while another one is dispatched are those of the actions that are run. -/
theorem Call.sends_eq (call : Call) (s : Store) :
    call.sends nested s = (call.steps nested s).flatMap fun step => Produce.sent step.1 step.2 := by
  unfold sends steps Dispatch.sends
  cases s.admission call.context call.level with
  | admitted c l a =>
    dsimp only
    cases Dispatch.explicitFields (s.sourceOf c) call.fields s with
    | error f s₁ => rfl
    | ok explicit s₁ =>
      dsimp only
      cases s.sourceOf c with
      | lazy of => exact Produce.invoked_eq of 0 {} s₁
      | contextual of => exact Produce.invoked_eq of 4 _ s₁
      | _ => rfl
  | _ => rfl

/-- The dispatches of a history are all those that begin, in the order in which they do. -/
theorem Call.filterMap_history (call : Call) (s : Store) :
    (call.history caught depth s).filterMap Moment.begun? = call.begun caught depth s := by
  induction depth generalizing call s with
  | zero => rfl
  | succ depth ih =>
    have hmoments : ∀ step : Action × Store,
        (Produce.moments (fun sent => history caught depth sent.1 sent.2) step).filterMap Moment.begun? =
          (Produce.sent step.1 step.2).flatMap fun sent => sent.1.begun caught depth sent.2 := fun step => by
      have hnone : (step.1.adjustment?.toList.map Moment.adjusts).filterMap Moment.begun? = [] := by
        cases step.1.adjustment? <;> rfl
      rw [Produce.moments, List.filterMap_append, hnone, List.nil_append, List.filterMap_flatMap]
      exact congrArg (List.flatMap · _) (funext fun sent => ih sent.1 sent.2)
    have hbegins : Moment.begun? (.begins call s) = some (call, s) := rfl
    rw [history, begun, sends_eq, List.flatMap_assoc, List.filterMap_cons_some hbegins, List.filterMap_flatMap]
    exact congrArg (fun f => (call, s) :: List.flatMap f _) (funext hmoments)

theorem Store.filterMap_history (s : Store) (turns : List Turn) :
    (s.history caught depth turns).filterMap Moment.begun? = s.begun caught depth turns := by
  induction turns generalizing s with
  | nil => rfl
  | cons turn turns ih =>
    have hturn : (turn.history caught depth s).filterMap Moment.begun? = turn.begun caught depth s := by
      cases turn with
      | dispatch call => exact call.filterMap_history s
      | adjust adjustment => rfl
      | derive c derivation => rfl
    rw [history, begun, List.filterMap_append, hturn, ih]

/-! ## The defaults along a history -/

/-- The defaults after what happens at one moment. -/
def Defaults.alter (d : Defaults) : Moment → Defaults
  | .begins _ _ => d
  | .adjusts adjustment => d.changed adjustment.change?

/-- The defaults after some moments: each change is made to what those before it have left. -/
def Defaults.after (d : Defaults) (ms : List Moment) : Defaults := ms.foldl alter d

/-- Along some moments the defaults become other ones, and every dispatch begins with those of its time. -/
inductive Told : Defaults → List Moment → Defaults → Prop
  | nothing (d : Defaults) : Told d [] d
  | begins {call : Call} {s : Store} {ms : List Moment} {d : Defaults} :
      Told s.defaults ms d → Told s.defaults (.begins call s :: ms) d
  | adjusts {adjustment : Adjustment} {ms : List Moment} {d d' : Defaults} :
      Told (d.changed adjustment.change?) ms d' → Told d (.adjusts adjustment :: ms) d'

namespace Told

variable {d d' d'' : Defaults} {ms ms' : List Moment}

theorem append (h : Told d ms d') (h' : Told d' ms' d'') : Told d (ms ++ ms') d'' := by
  induction h with
  | nothing d => exact h'
  | begins _ ih => exact .begins (ih h')
  | adjusts _ ih => exact .adjusts (ih h')

/-- What happens after nothing has changed the defaults. -/
theorem of_eq (h : d' = d) (ht : Told d' ms d'') : Told d ms d'' := h ▸ ht

theorem unchanged (h : d' = d) : Told d [] d' := h ▸ .nothing d

theorem after (h : Told d ms d') : d' = d.after ms := by
  induction h with
  | nothing d => rfl
  | begins _ ih => exact ih
  | adjusts _ ih => exact ih

theorem begun (h : Told d ms d') {earlier later : List Moment} {call : Call} {s : Store}
    (hms : ms = earlier ++ .begins call s :: later) : s.defaults = d.after earlier := by
  induction h generalizing earlier with
  | nothing d => cases earlier <;> cases hms
  | begins _ ih =>
    cases earlier with
    | nil => cases hms; rfl
    | cons m earlier =>
      obtain ⟨rfl, hrest⟩ := List.cons.inj hms
      exact (ih hrest :)
  | adjusts _ ih =>
    cases earlier with
    | nil => cases hms
    | cons m earlier =>
      obtain ⟨rfl, hrest⟩ := List.cons.inj hms
      exact (ih hrest :)

end Told

/-- What makes mappings and does nothing else leaves the defaults as they are. -/
theorem defaults_of_roomy {α : Type} {x : Session α}
    (h : ∀ d, Store.Roomy (·.defaults = d) → x.Keeps (·.defaults = d)) (s : Store) :
    (x.leaves s).defaults = s.defaults := (h s.defaults fun _ _ hs => hs).leaves rfl

theorem Adjustment.defaults_perform (s : Store) (adjustment : Adjustment) :
    (adjustment.perform.leaves s).defaults = s.defaults.changed adjustment.change? := by
  obtain ⟨journal, h⟩ := adjustment.leaves_perform s
  rw [h]

/-- Entries that are sent come to what `give` says of them. -/
def NestedTold (nested : Call → Session Unit) (give : Call × Store → List Moment) : Prop :=
  ∀ sent : Call × Store, Told sent.2.defaults (give sent) ((nested sent.1).leaves sent.2).defaults

variable {give : Call × Store → List Moment}

theorem leaves_then_pure {α β : Type} (x : Session α) (b : β) (s : Store) :
    (do let _ ← x; return b : Session β).leaves s = x.leaves s := by
  cases hx : x s with
  | ok a s₁ => rw [leaves_congr (run_bind_ok hx), leaves_ok hx]; rfl
  | error f s₁ => rw [leaves_error (run_bind_error hx), leaves_error hx]

namespace Produce

theorem act_told (hn : NestedTold nested give) (p : ProducerRef) (scope : Scope) (output : Fields)
    (action : Action) (s : Store) :
    Told s.defaults (moments give (action, s)) ((act nested p scope output action).leaves s).defaults := by
  have hadjusts : ∀ adjustment : Adjustment,
      Told s.defaults [.adjusts adjustment] (adjustment.perform.leaves s).defaults := fun adjustment => by
    rw [adjustment.defaults_perform]
    exact .adjusts (.nothing _)
  have hediting : Store.Editing (fun _ => True) (·.defaults = s.defaults) := ⟨fun _ _ _ hs => hs⟩
  have hinner : action.isInner → ((act nested p scope output action).leaves s).defaults = s.defaults := fun ha =>
    have hkeeps : (act nested p scope output action).Keeps (·.defaults = s.defaults) :=
      act_inner_keeps hediting (fun _ _ => trivial) p output ha
    hkeeps.leaves rfl
  cases action with
  | dispatch target level fields args =>
    have hsending := defaults_of_roomy (fun d hI => sending_roomy hI target level fields args) s
    rw [act_dispatch]
    show Told s.defaults ((sent (.dispatch target level fields args) s).flatMap give) _
    cases hsend : sending target level fields args s with
    | error f s₁ =>
      rw [leaves_error hsend] at hsending
      rw [leaves_error (run_bind_error hsend)]
      simp only [sent, hsend]
      exact .unchanged hsending
    | ok call s₁ =>
      rw [leaves_ok hsend] at hsending
      rw [leaves_congr (run_bind_ok hsend), leaves_then_pure]
      simp only [sent, hsend, List.flatMap_cons, List.flatMap_nil, List.append_nil]
      exact .of_eq hsending (hn (call, s₁))
  | configure changes =>
    have hact : (act nested p scope output (.configure changes)).leaves s =
        (Adjustment.configure changes).perform.leaves s := leaves_then_pure _ _ s
    rw [hact]
    exact hadjusts (.configure changes)
  | reset environment =>
    have hact : (act nested p scope output (.reset environment)).leaves s =
        (Adjustment.reset environment).perform.leaves s := leaves_then_pure _ _ s
    rw [hact]
    exact hadjusts (.reset environment)
  | _ => exact .unchanged (hinner rfl)

theorem run_told (hn : NestedTold nested give) (p : ProducerRef) (scope : Scope) (output : Fields)
    (program : List Action) (s : Store) :
    Told s.defaults ((steps nested p scope output program s).flatMap (moments give))
      ((run nested p scope output program).leaves s).defaults := by
  induction program generalizing output s with
  | nil => exact .nothing _
  | cons action rest ih =>
    have hact := act_told hn p scope output action s
    -- Two actions end the run; any other one is followed by the rest.
    have hgoes : Told s.defaults (((action, s) :: match act nested p scope output action s with
          | .ok output s' => steps nested p scope output rest s'
          | .error _ _ => []).flatMap (moments give))
        ((act nested p scope output action >>= fun output => run nested p scope output rest).leaves s).defaults := by
      rw [List.flatMap_cons]
      cases hx : act nested p scope output action s with
      | error f s₁ =>
        rw [leaves_error hx] at hact
        rw [leaves_error (run_bind_error hx), List.flatMap_nil, List.append_nil]
        exact hact
      | ok out s₁ =>
        rw [leaves_ok hx] at hact
        rw [leaves_congr (run_bind_ok hx)]
        exact hact.append (ih out s₁)
    cases action with
    | giveNothing => exact .nothing _
    | giveFields => exact .nothing _
    | _ => exact hgoes

theorem invoke_told (hn : NestedTold nested give) (of : Source) (count : Nat) (scope : Scope) (s : Store) :
    Told s.defaults ((invokedSteps nested of count scope s).flatMap (moments give))
      ((invoke nested of count scope).leaves s).defaults := by
  cases of with
  | producer p =>
    unfold invokedSteps
    dsimp only
    by_cases ht : s.takes p count
    · rw [if_pos ht, leaves_congr (invoke_of_takes ht scope)]
      exact run_told hn p scope .empty (s.producer p).program (s.counted p)
    · obtain ⟨f, hf⟩ : ∃ f, invoke nested (.producer p) count scope s = .error f s :=
        invoke_of_not_takes ht scope
      rw [if_neg ht, leaves_error hf]
      exact .nothing _
  | _ => exact .nothing _

end Produce

theorem resolveFields_told (hn : NestedTold nested give) (source : Source) (scope : Scope) (s : Store) :
    Told s.defaults ((source.steps nested scope s).flatMap (Produce.moments give))
      ((resolveFields nested source scope).leaves s).defaults := by
  have hsource : Told s.defaults ((source.steps nested scope s).flatMap (Produce.moments give))
      ((resolveSource nested source scope).leaves s).defaults := by
    cases source with
    | lazy of => exact Produce.invoke_told hn of 0 {} s
    | contextual of => exact Produce.invoke_told hn of 4 scope s
    | _ => exact .nothing _
  unfold resolveFields
  cases ha : source.isAbsent with
  | true =>
    cases source with
    | value v => exact .nothing _
    | _ => cases ha
  | false =>
    rw [if_neg Bool.false_ne_true]
    cases hx : resolveSource nested source scope s with
    | error f s₁ =>
      rw [leaves_error hx] at hsource
      rwa [leaves_error (run_bind_error hx)]
    | ok produced s₁ =>
      rw [leaves_ok hx] at hsource
      rw [leaves_congr (run_bind_ok hx)]
      have hmerge := defaults_of_roomy (fun d hI => mergedFields_roomy hI scope.fields produced) s₁
      exact hmerge ▸ hsource

theorem dispatchWith_told (hn : NestedTold nested give) (call : Call) (s : Store) :
    Told s.defaults (.begins call s :: (call.steps nested s).flatMap (Produce.moments give))
      ((dispatchWith nested call).leaves s).defaults := by
  refine .begins ?_
  have hrun := dispatchWith_run nested call s
  unfold Call.steps
  cases hadm : s.admission call.context call.level with
  | refused f =>
    rw [hadm] at hrun
    rw [leaves_error hrun]
    exact .nothing _
  | filtered =>
    rw [hadm] at hrun
    rw [leaves_ok hrun]
    exact .nothing _
  | admitted c l a =>
    rw [hadm] at hrun
    dsimp only at hrun ⊢
    rw [leaves_congr hrun]
    -- What comes after the fields leaves the defaults alone.
    have hlast : ((Dispatch.deliver nested c l a call).leaves s).defaults =
        ((Dispatch.entryFields nested c l call).leaves s).defaults := by
      cases hx : Dispatch.entryFields nested c l call s with
      | error f s₁ => rw [leaves_error (Dispatch.deliver_of_fields_error hx), leaves_error hx]
      | ok h s₁ =>
        rw [leaves_congr (Dispatch.deliver_conclude hx), Dispatch.conclude_defaults, leaves_ok hx]
    rw [hlast]
    have hexplicit := defaults_of_roomy
      (fun d hI => Dispatch.explicitFields_roomy hI (s.sourceOf c) call.fields) s
    have hfields : Dispatch.entryFields nested c l call s = (do
        let explicit ← Dispatch.explicitFields (s.sourceOf c) call.fields
        resolveFields nested (s.sourceOf c)
          { context := some c, level := .level l, fields := explicit, args := call.args }) s := rfl
    rw [leaves_congr hfields]
    cases hx : Dispatch.explicitFields (s.sourceOf c) call.fields s with
    | error f s₁ =>
      rw [leaves_error hx] at hexplicit
      rw [leaves_error (run_bind_error hx)]
      exact .unchanged hexplicit
    | ok explicit s₁ =>
      rw [leaves_ok hx] at hexplicit
      rw [leaves_congr (run_bind_ok hx)]
      exact .of_eq hexplicit (resolveFields_told hn (s.sourceOf c) _ s₁)

theorem dispatchWithin_told (caught : Tolerance) (depth : Nat) (call : Call) (s : Store) :
    Told s.defaults (call.history caught depth s) ((dispatchWithin caught depth call).leaves s).defaults := by
  induction depth generalizing call s with
  | zero => exact .nothing _
  | succ depth ih =>
    refine dispatchWith_told (fun sent => ?_) call s
    rw [sentWithin, catching_leaves]
    exact ih sent.1 sent.2

/-- Every dispatch of a run begins with the defaults as they are then. -/
theorem Store.through_told (caught : Tolerance) (depth : Nat) (s : Store) (turns : List Turn) :
    Told s.defaults (s.history caught depth turns) (s.through caught depth turns).defaults := by
  induction turns generalizing s with
  | nil => exact .nothing _
  | cons turn turns ih =>
    have hturn : Told s.defaults (turn.history caught depth s) ((turn.perform caught depth).leaves s).defaults := by
      cases turn with
      | dispatch call => exact dispatchWithin_told caught depth call s
      | adjust adjustment =>
        have hperform := adjustment.defaults_perform s
        exact .adjusts (.unchanged hperform)
      | derive c derivation =>
        have hkeeps : (Turn.perform caught depth (.derive c derivation)).Keeps (·.defaults = s.defaults) :=
          Turn.derive_keeps (fun _ _ hs => hs) (fun _ _ hs => hs) c derivation
        exact .unchanged (hkeeps.leaves rfl)
    exact hturn.append (ih _)

/-! ## The law -/

/-- What the defaults decide of a dispatch that begins with the store `s`, where `nested` dispatches the entries
that its source sends. -/
structure Call.Decided (nested : Call → Session Unit) (call : Call) (s : Store) : Prop where
  /-- An entry that the defaults of the beginning do not let through changes nothing and is not delivered. -/
  dropped : (∀ c l a, ¬ s.LetsThrough call c l a) →
    (dispatchWith nested call).leaves s = s ∧ (call.share nested s).delivery = none
  /-- One that they let through goes on in the same way, whatever the defaults are once it has its fields. -/
  goesOn : ∀ c l a, s.LetsThrough call c l a → ∀ h s₁, Dispatch.entryFields nested c l call s = .ok h s₁ → ∀ d,
    (dispatchWith nested call).outcome s =
        (Dispatch.conclude s.defaults.debug c l a call h).outcome { s₁ with defaults := d } ∧
      { (dispatchWith nested call).leaves s with defaults := d } =
        (Dispatch.conclude s.defaults.debug c l a call h).leaves { s₁ with defaults := d }
  /-- All that is delivered and reported in the end is what the entries inside it come to, and its own share. -/
  shares : NestedPrograms nested → ∀ give : Call × Store → List Share,
    (∀ sent : Call × Store, sent.2.Shares (give sent) ((nested sent.1).leaves sent.2)) →
      s.Shares ((call.sends nested s).flatMap give ++ [call.share nested s]) ((dispatchWith nested call).leaves s)
  /-- The share is delivered through the context and to the appender of the beginning, and is recorded if entries
  were traced then. -/
  delivered : ∀ d, (call.share nested s).delivery = some d → ∃ c l a, s.LetsThrough call c l a ∧
    d.appender = a ∧ d.context = some c ∧ d.level = .level l ∧
      (call.share nested s).records.length = if s.defaults.debug.isTrue then 1 else 0

theorem Dispatch.share_delivered {d : Delivery} (hd : (share nested c l a call s).delivery = some d) :
    d.appender = a ∧ d.context = some c ∧ d.level = .level l ∧
      (share nested c l a call s).records.length = if s.defaults.debug.isTrue then 1 else 0 := by
  unfold share at hd ⊢
  cases hx : entryFields nested c l call s with
  | error f s₁ => rw [hx] at hd; cases hd
  | ok h s₁ =>
    cases hm : (formatMessage call.args call.templated).2 with
    | error f => rw [hx, hm] at hd; cases hd
    | ok msg =>
      rw [hx, hm] at hd
      dsimp only at hd ⊢
      cases hr : s₁.recordOf s.defaults.debug ⟨a, some c, .level l, s₁.supplied h, .text msg⟩ with
      | error f => rw [hr] at hd; cases hd
      | ok records =>
        rw [hr] at hd
        cases hd
        refine ⟨rfl, rfl, rfl, ?_⟩
        have hrecords := Store.recordOf_ok hr
        cases hdebug : s.defaults.debug.isTrue with
        | true =>
          rw [hdebug] at hrecords
          obtain ⟨event, -, rfl⟩ := hrecords
          rfl
        | false =>
          rw [hdebug] at hrecords
          dsimp only at hrecords
          rw [hrecords]
          rfl

theorem Call.decided (nested : Call → Session Unit) (call : Call) (s : Store) : call.Decided nested s := by
  have hrun := dispatchWith_run nested call s
  refine ⟨fun hno => ?_, fun c l a hlets h s₁ hx d => ?_, fun hn give hgive => ?_, fun d hd => ?_⟩
  · unfold share
    cases hadm : s.admission call.context call.level with
    | refused f =>
      rw [hadm] at hrun
      exact ⟨leaves_error hrun, rfl⟩
    | filtered =>
      rw [hadm] at hrun
      exact ⟨leaves_ok hrun, rfl⟩
    | admitted c l a => exact absurd (Store.admission_eq_admitted_iff.1 hadm) (hno c l a)
  · rw [Store.admission_eq_admitted_iff.2 hlets] at hrun
    have hconclude := hrun.trans (Dispatch.deliver_conclude hx)
    obtain ⟨houtcome, hleaves⟩ := Dispatch.conclude_redefined d s.defaults.debug c l a call h s₁
    rw [outcome_congr hconclude, leaves_congr hconclude, houtcome, hleaves]
    exact ⟨rfl, rfl⟩
  · exact dispatchWith_shares hn give hgive call s
  · unfold share at hd ⊢
    cases hadm : s.admission call.context call.level with
    | refused f => rw [hadm] at hd; cases hd
    | filtered => rw [hadm] at hd; cases hd
    | admitted c l a =>
      rw [hadm] at hd
      exact ⟨c, l, a, Store.admission_eq_admitted_iff.1 hadm, Dispatch.share_delivered hd⟩

/-- On every run of a host, whatever the defaults are changed to by the host or by a source while it makes the
fields of an entry: each dispatch begins with the defaults that all the changes before it have left, those inside
other dispatches among them, and is decided by these alone. -/
theorem defaults_read_once (caught : Tolerance) (depth : Nat) (s : Store) (turns : List Turn) :
    (∀ earlier call b later, s.history caught depth turns = earlier ++ .begins call b :: later →
      b.defaults = s.defaults.after earlier ∧ ∀ nested, call.Decided nested b) ∧
    (s.through caught depth turns).defaults = s.defaults.after (s.history caught depth turns) ∧
    (s.history caught depth turns).filterMap Moment.begun? = s.begun caught depth turns := by
  have htold := s.through_told caught depth turns
  refine ⟨fun earlier call b later hms => ?_, htold.after, s.filterMap_history turns⟩
  exact ⟨htold.begun hms, fun nested => call.decided nested b⟩

/-- A store with a context whose source lowers the default threshold, moves the default appender, turns tracing
on, sends an entry, and then takes the default appender away. -/
def redefiningSource : Store where
  contexts := [{}, { source := .contextual (.producer ⟨0⟩) }]
  producers := [{
    signature := none
    program := [.configure [.level (.level .debug), .appender (some ⟨1⟩), .debug (.bool true)],
      .dispatch .default (.level .info) .nothing [.str "inner"], .configure [.appender none]]
    typeName := "function"
    representation := "<function>" }]
  appenders := [.recording [] [], .recording [] []]
  defaults := { appender := some ⟨0⟩ }

/-- An entry through that context still goes to the first appender and is not recorded; the one inside it passes
the new threshold, goes to the second appender and is recorded. -/
example :
    let after := redefiningSource.through .strict 2
      [.dispatch { context := some ⟨1⟩, level := .level .error, args := [.str "outer"] }]
    (after.appender ⟨0⟩).contexts = [some ⟨1⟩] ∧ (after.appender ⟨1⟩).contexts = [some ⟨0⟩] ∧
      after.journal.map (·.message) = ["defaults_configured", "append", "defaults_configured"] := by
  decide +kernel

end ContextLog
