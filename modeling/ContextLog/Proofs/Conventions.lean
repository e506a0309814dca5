import ContextLog.Emit
import ContextLog.Proofs.Level
import ContextLog.Proofs.PrintStyle
import ContextLog.Proofs.Reentry
import ContextLog.Proofs.Renaming
/-!
# Calling conventions

An entry without fields of its own can be sent by the function of a level, by the one that takes the level, by a
logger that is bound to a context, by one of its other two spellings, or by a builder that has collected nothing
(`Convention`). They differ in what they hand to the dispatch: no fields or an empty mapping, a level or a value
that is one, and whether the first argument may be a template. None of this makes a difference
(`one_dispatch`), but that arguments behind a first text are joined with spaces where there is no template.
-/

namespace ContextLog

open Session

variable {nested : Call → Session Unit} {s s₁ : Store} {call call' : Call} {h h' : Handle} {c : ContextRef}
  {l : Level} {a : AppenderRef} {args : List Value} {m : Method} {context : Option ContextRef}

/-! ## Calls that come to the same -/

/-- A call counts for its fields and its message, besides where it goes. -/
theorem Dispatch.deliver_congr (hx : entryFields nested c l call' s = entryFields nested c l call s)
    (hm : formatMessage call'.args call'.templated = formatMessage call.args call.templated) :
    deliver nested c l a call' s = deliver nested c l a call s := by
  have hmessage : message call'.args call'.templated = message call.args call.templated := by
    unfold message
    rw [hm]
  cases hx' : entryFields nested c l call s with
  | error f s₁ => rw [deliver_of_fields_error hx', deliver_of_fields_error (hx.trans hx')]
  | ok h s₁ => rw [deliver_of_fields hx', deliver_of_fields (hx.trans hx'), hmessage]

theorem dispatch_congr (depth : Nat)
    (hadm : s.admission call'.context call'.level = s.admission call.context call.level)
    (hx : ∀ nested c l, Dispatch.entryFields nested c l call' s = Dispatch.entryFields nested c l call s)
    (hm : formatMessage call'.args call'.templated = formatMessage call.args call.templated) :
    dispatch depth call' s = dispatch depth call s := by
  cases depth with
  | zero => rfl
  | succ depth =>
    show dispatchWith (dispatch depth) call' s = dispatchWith (dispatch depth) call s
    rw [dispatchWith_run, dispatchWith_run, hadm]
    cases s.admission call.context call.level with
    | refused f => rfl
    | filtered => rfl
    | admitted c l a => exact Dispatch.deliver_congr (hx _ c l) hm

/-- Whatever holds nothing stands for no fields at all. -/
theorem Dispatch.explicitFields_absent (source : Source) (hp : s.isPresent h = false)
    (hp' : s.isPresent h' = false) : explicitFields source h' s = explicitFields source h s := by
  have hcopy : ∀ h : Handle, s.isPresent h = false → newCopy h s = newMapping .empty s := by
    intro h hp
    have hp : (s.supplied h).isPresent = false := hp
    unfold newCopy Supplied.copyIfPresent
    rw [run_bind_ok run_get, hp]
    rfl
  unfold explicitFields
  split
  · simp only [bind, EStateM.bind, hcopy h hp, hcopy h' hp']
  · rw [run_bind_ok run_get, run_bind_ok run_get, hp, hp']
    rfl

theorem dispatch_absent (depth : Nat) (call : Call) (hp : s.isPresent call.fields = false)
    (hp' : s.isPresent h' = false) : dispatch depth { call with fields := h' } s = dispatch depth call s := by
  refine dispatch_congr depth rfl (fun nested c l => ?_) rfl
  unfold Dispatch.entryFields
  rw [run_bind_ok run_get, run_bind_ok run_get]
  simp only [bind, EStateM.bind, Dispatch.explicitFields_absent (s.sourceOf c) hp hp']

/-- Without a context an entry goes to the default one. -/
theorem dispatch_default (depth : Nat) (call : Call) :
    dispatch depth { call with context := none } s =
      dispatch depth { call with context := s.defaults.context } s := by
  refine dispatch_congr depth ?_ (fun _ _ _ => rfl) rfl
  unfold Store.admission
  rw [Option.or_self, Option.none_or]

/-! ## Messages without a template -/

/-- All mismatches of an entry come from its own arguments. -/
theorem Call.share_mismatches (nested : Call → Session Unit) (h : call.mismatches = []) (s : Store) :
    (call.share nested s).mismatches = [] := by
  unfold share
  split
  · unfold Dispatch.share
    split
    · rfl
    · exact h
    · dsimp only
      split <;> exact h
  · rfl

/-- How a dispatch `x` goes whose message is made of all its arguments, with others inside it to a depth. -/
structure Call.PrintsJoined (call : Call) (depth : Nat) (s : Store) (x : Session Unit) : Prop where
  /-- Once the fields are there, the entry goes to its appender with the texts of all arguments, joined, and
  what follows at its level has the same message; nothing is reported before. If an argument has no text, that
  is the outcome. -/
  run : ∀ c l a h s₁, s.admission call.context call.level = .admitted c l a →
    Dispatch.entryFields (dispatch depth) c l call s = .ok h s₁ →
    x s = match call.args.mapM render with
      | .error f => .error f s₁
      | .ok parts => (do
          Dispatch.handOver s.defaults.debug c l a h (joinTexts parts)
          Dispatch.followUp l (joinTexts parts)) s₁
  /-- What is delivered and reported is the share of the entry, behind those of the entries inside it. -/
  shares : s.Shares ((call.sends (dispatch depth) s).flatMap (fun sent =>
      (Tree.of .strict depth (call.given s) sent.1 sent.2).postorder.map (·.share)) ++
    [call.share (dispatch depth) s]) (x.leaves s)
  /-- Its own share holds no mismatch. -/
  mismatches : (call.share (dispatch depth) s).mismatches = []
  /-- Its appender is handed the joined texts. -/
  message : ∀ d, (call.share (dispatch depth) s).delivery = some d →
    ∃ parts, call.args.mapM render = .ok parts ∧ d.msg = .text (joinTexts parts)

theorem Call.printsJoined (depth : Nat) (s : Store)
    (hm : formatMessage call.args call.templated = (none, joinTexts <$> call.args.mapM render)) :
    call.PrintsJoined depth s (dispatch (depth + 1) call) := by
  have hnone : call.mismatches = [] := by
    unfold mismatches
    rw [hm]
    rfl
  have hsent : sentWithin .strict depth = dispatch depth :=
    (sentWithin_strict depth).trans (funext (dispatchWithin_strict depth))
  refine ⟨fun c l a h s₁ hadm hx => ?_, ?_, call.share_mismatches (dispatch depth) hnone s, fun d hd => ?_⟩
  · show dispatchWith (dispatch depth) call s = _
    have hmessage := Dispatch.message_run s₁ call
    rw [hnone, List.append_nil, hm] at hmessage
    rw [dispatchWith_run, hadm]
    dsimp only
    rw [Dispatch.deliver_of_fields hx]
    cases hparts : call.args.mapM render with
    | error f =>
      rw [hparts] at hmessage
      exact run_bind_error hmessage
    | ok parts =>
      rw [hparts] at hmessage
      exact run_bind_ok hmessage
  · have hprograms := sentWithin_programs .strict depth
    rw [hsent] at hprograms
    refine dispatchWith_shares hprograms _ (fun sent => ?_) call s
    exact dispatchWithin_strict depth sent.1 ▸ dispatchWithin_shares depth (call.given s) sent.1 sent.2
  · obtain ⟨msg, hmsg, hd⟩ := (share_isOf hd).msg
    rw [hm] at hmsg
    cases hparts : call.args.mapM render with
    | error f =>
      rw [hparts] at hmsg
      cases hmsg
    | ok parts =>
      rw [hparts] at hmsg
      cases hmsg
      exact ⟨parts, rfl, hd⟩

/-! ## The law -/

/-- A way to send an entry without fields of its own at the level of a method. -/
inductive Convention
  | function
  /-- By the function that takes the level. -/
  | leveled (level : Value)
  /-- By a logger. -/
  | bound
  /-- By a logger, with a template and its arguments. -/
  | template
  /-- By a logger, with arguments to be joined. -/
  | line
  /-- By a builder that has collected nothing. -/
  | builder
  | builderLeveled (level : Value)

namespace Convention

/-- Sends an entry. -/
def send (m : Method) (context : Option ContextRef) (args : List Value) : Convention → Session Unit
  | function => emit m context args
  | leveled level => log context level args
  | bound => (Logger.mk context).print m args
  | template => (Logger.mk context).printf m args
  | line => (Logger.mk context).println m args
  | builder => do (← Entry.new .nothing).emit m context args
  | builderLeveled level => do (← Entry.new .nothing).log context level args

/-- A level is the one of the method, a template is there, and arguments to be joined are less than two or do not
begin with a text. -/
def Fits (m : Method) (args : List Value) : Convention → Prop
  | leveled level | builderLeveled level => level.SameKey (.level m.level)
  | template => args ≠ []
  | line => ∀ first rest, args = first :: rest → rest ≠ [] → first.isText = false
  | _ => True

/-- Is a builder made? -/
def builds : Convention → Bool
  | builder | builderLeveled _ => true
  | _ => false

end Convention

theorem log_eq_emit {level : Value} (hlevel : level.SameKey (.level m.level)) (context : Option ContextRef)
    (args : List Value) : log context level args = emit m context args := by
  unfold log
  rw [Level.ofValue_of_sameKey hlevel]
  rfl

theorem log_default (level : Value) (args : List Value) (s : Store) :
    log none level args s = log s.defaults.context level args s := by
  unfold log
  cases Level.ofValue level with
  | error f => rfl
  | ok l => exact dispatch_default nestingLimit { level := .level l, args }

namespace Logger

theorem println_eq_emit (h : Convention.line.Fits m args) (context : Option ContextRef) (s : Store) :
    (Logger.mk context).println m args s = emit m context args s :=
  dispatch_congr nestingLimit rfl (fun _ _ _ => rfl) (formatMessage_untemplated h)

theorem printf_default (m : Method) (args : List Value) (s : Store) :
    (Logger.mk none).printf m args s = (Logger.mk s.defaults.context).printf m args s := by
  cases args with
  | nil => rfl
  | cons template args => exact dispatch_default nestingLimit { level := .level m.level, args := template :: args }

end Logger

namespace Entry

theorem new_run (s : Store) : new .nothing s =
    .ok ⟨⟨s.mappings.length⟩⟩ { s with mappings := s.mappings ++ [.empty] } := rfl

theorem log_eq_emit {level : Value} (hlevel : level.SameKey (.level m.level)) (e : Entry)
    (context : Option ContextRef) (args : List Value) : e.log context level args = e.emit m context args := by
  unfold log
  rw [Level.ofValue_of_sameKey hlevel]
  rfl

/-- A builder that has collected nothing might as well not be there. -/
theorem emit_absent {e : Entry} (he : s.isPresent (.live e.fields) = false) (m : Method)
    (context : Option ContextRef) (args : List Value) : e.emit m context args s = ContextLog.emit m context args s :=
  dispatch_absent nestingLimit { context, level := .level m.level, args } rfl he

theorem emit_default (e : Entry) (m : Method) (args : List Value) (s : Store) :
    e.emit m none args s = e.emit m s.defaults.context args s :=
  dispatch_default nestingLimit { level := .level m.level, fields := .live e.fields, args }

theorem log_default (e : Entry) (level : Value) (args : List Value) (s : Store) :
    e.log none level args s = e.log s.defaults.context level args s := by
  unfold log
  cases Level.ofValue level with
  | error f => rfl
  | ok l => exact dispatch_default nestingLimit { level := .level l, fields := .live e.fields, args }

/-- A builder that is made for an entry changes nothing but where later mappings are kept. -/
theorem new_emit_matched (hs : s.IsWhole) (m : Method) (context : Option ContextRef) (args : List Value) :
    Ends (Store.Matched s.pairing) Eq (ContextLog.emit m context args s)
      ((do (← new .nothing).emit m context args : Session Unit) s) := by
  have hmatched := hs.matched .empty
  have hempty := Store.mapping_allotted s .empty
  generalize hs' : ({ s with mappings := s.mappings ++ [.empty] } : Store) = s' at hmatched hempty
  have habsent : s'.isPresent (.live ⟨s.mappings.length⟩) = false := by
    show (Supplied.fields (s'.mapping ⟨s.mappings.length⟩)).isPresent = false
    rw [hempty]
    rfl
  rw [run_bind_ok ((new_run s).trans (by rw [hs'])), emit_absent habsent]
  -- A store with one mapping more is matched with the store itself, and so it stays.
  have hcall : ∀ call : Call, call.fields = .nothing →
      call.Tied (s.GivesSame s.pairing.Tied s') call := fun call hfields =>
    ⟨rfl, rfl, .inl (hfields ▸ .nothing), rfl, rfl⟩
  have hends := dispatchWithin_matched Tolerance.strict_isBlind hmatched
    (hcall { context, level := .level m.level, args } rfl) nestingLimit
  rwa [dispatchWithin_strict] at hends

end Entry

namespace Convention

theorem send_eq_emit {way : Convention} (h : way.Fits m args) (hway : way.builds = false)
    (context : Option ContextRef) (s : Store) : way.send m context args s = emit m context args s := by
  cases way with
  | function => rfl
  | leveled level => exact congrFun (log_eq_emit h context args) s
  | bound => rfl
  | template =>
    cases args with
    | nil => exact absurd rfl h
    | cons template args => rfl
  | line => exact Logger.println_eq_emit h context s
  | builder => cases hway
  | builderLeveled level => cases hway

theorem send_default (way : Convention) (m : Method) (args : List Value) (s : Store) :
    way.send m none args s = way.send m s.defaults.context args s := by
  have hemit := dispatch_default (s := s) nestingLimit { level := .level m.level, args }
  cases way with
  | function => exact hemit
  | leveled level => exact log_default level args s
  | bound => exact hemit
  | template => exact Logger.printf_default m args s
  | line => exact dispatch_default nestingLimit { level := .level m.level, args, templated := false }
  | builder => exact Entry.emit_default ⟨⟨s.mappings.length⟩⟩ m args { s with mappings := s.mappings ++ [.empty] }
  | builderLeveled level =>
    exact Entry.log_default ⟨⟨s.mappings.length⟩⟩ level args { s with mappings := s.mappings ++ [.empty] }

theorem send_matched {way : Convention} (h : way.Fits m args) (hs : s.IsWhole) (context : Option ContextRef)
    (hway : way.builds = true) :
    Ends (Store.Matched s.pairing) Eq (emit m context args s) (way.send m context args s) := by
  cases way with
  | builder => exact Entry.new_emit_matched hs m context args
  | builderLeveled level =>
    have hlog : (fun e : Entry => e.log context level args) = fun e => e.emit m context args :=
      funext fun e => e.log_eq_emit h context args
    show Ends (Store.Matched s.pairing) Eq _ ((Entry.new .nothing >>= fun e => e.log context level args) s)
    rw [hlog]
    exact Entry.new_emit_matched hs m context args
  | _ => cases hway

end Convention

/-- All ways to send an entry by a method, with these arguments from this store, are one dispatch. -/
structure Method.IsOneDispatch (m : Method) (args : List Value) (s : Store) : Prop where
  /-- They have the same outcome and leave the same store. -/
  same : ∀ (way : Convention) context, way.Fits m args → way.builds = false →
    way.send m context args s = emit m context args s
  /-- So has a builder that has collected nothing, at the method's level given in either way; -/
  absent : ∀ (e : Entry) context, s.isPresent (.live e.fields) = false →
    e.emit m context args s = emit m context args s ∧
      ∀ level : Value, level.SameKey (.level m.level) → e.log context level args s = emit m context args s
  /-- and if a builder is made for the entry, then the outcome is the same, and so is all that is left but for
  where mappings are kept. -/
  built : ∀ (way : Convention) context, way.Fits m args → way.builds = true →
    Ends (Store.Matched s.pairing) Eq (emit m context args s) (way.send m context args s)
  /-- No context is the default one. -/
  default : ∀ way : Convention, way.send m none args s = way.send m s.defaults.context args s
  /-- Where the spelling without a template makes a difference, the message is made of all arguments. -/
  joined : ∀ context, ¬ Convention.line.Fits m args →
    Call.PrintsJoined { context, level := .level m.level, args, templated := false } 199 s
      (Convention.line.send m context args)

theorem one_dispatch (hs : s.IsWhole) (m : Method) (args : List Value) : m.IsOneDispatch args s where
  same way context h hway := Convention.send_eq_emit h hway context s
  absent e context he := by
    have hemit := Entry.emit_absent he m context args
    refine ⟨hemit, fun level hlevel => ?_⟩
    rw [e.log_eq_emit hlevel]
    exact hemit
  built way context h hway := Convention.send_matched h hs context hway
  default way := way.send_default m args s
  joined context h := by
    refine Call.printsJoined 199 s ?_
    cases args with
    | nil => exact absurd (fun first rest h => nomatch h) h
    | cons first rest =>
      cases rest with
      | nil =>
        refine absurd (fun first rest h hrest => ?_) h
        cases h
        exact absurd rfl hrest
      | cons second rest => exact formatMessage_joined first second rest

/-- A store with a context of fixed fields, and with one whose source sends an entry to it. -/
def relayingSource : Store where
  mappings := [.ofList [(.str "app", .str "shop")]]
  contexts := [{}, { source := .static ⟨0⟩ }, { source := .contextual (.producer ⟨0⟩), level := .level .warn }]
  producers := [{
    signature := none
    program := [.dispatch (.context ⟨1⟩) (.level .error) .nothing [.str "inner"], .giveFields]
    typeName := "function"
    representation := "<function>" }]
  appenders := [.recording [] []]
  defaults := { appender := some ⟨0⟩, context := some ⟨2⟩ }

theorem one_dispatch_relayingSource :
    relayingSource.IsWhole ∧ Method.panic.IsOneDispatch [.str "%s left", .int 3] relayingSource :=
  have hs : relayingSource.IsWhole := by decide
  ⟨hs, one_dispatch hs .panic [.str "%s left", .int 3]⟩

/-- Without a template the arguments are joined. -/
example : (Convention.line.send .panic none [.str "%s left", .int 3]).outcome
    { appenders := [.recording [] []], defaults := { appender := some ⟨0⟩ } } =
      .error (.panicked (.ofString "%s left 3")) := by
  rfl

end ContextLog
