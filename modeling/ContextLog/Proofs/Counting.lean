import ContextLog.Proofs.Nesting
import ContextLog.Proofs.Origin
/-!
# Counting the calls of producers

An entry calls a producer if it is let through by a context that carries it, and if its fields can be handed
to it (`Call.calls`). `Store.Counts` says that the calls of a producer grow along a list of dispatches by one
for each of them that calls it; all else that happens while an entry is dispatched leaves the producers as
they are (`Session.IsStill`). So the fields of an entry come with one call of the producer that its context
carries, and with the calls inside the entries that this one sends (`Dispatch.entryFields_counts`).
-/

namespace ContextLog

variable {caught : Tolerance} {nested : Call → Session Unit} {s s₁ s' s'' : Store} {p q : ProducerRef}
  {c : ContextRef} {l : Level} {a : AppenderRef} {call : Call}

/-! ## Entries that call a producer -/

/-- The producer that a source calls, and with how many arguments. -/
def Source.call? : Source → Option (ProducerRef × Nat)
  | .lazy (.producer p) => some (p, 0)
  | .contextual (.producer p) => some (p, 4)
  | _ => none

namespace Store

/-- An entry is let through: its level is one and is not below the threshold, and there is an appender. -/
structure LetsThrough (s : Store) (call : Call) (c : ContextRef) (l : Level) (a : AppenderRef) : Prop where
  context : call.context.or s.defaults.context = some c
  level : call.level.SameKey (.level l)
  passes : l.exceeds (s.levelOf s.defaults c) = .ok false
  appender : s.appenderOf s.defaults c = some a

/-- A context carries a producer: its source calls it with as many arguments as the producer takes. -/
def Carries (s : Store) (c : ContextRef) (p : ProducerRef) : Prop :=
  ∃ n, (s.sourceOf c).call? = some (p, n) ∧ s.takes p n

instance (s : Store) (c : ContextRef) (p : ProducerRef) : Decidable (s.Carries c p) :=
  match h : (s.sourceOf c).call? with
  | none => isFalse (by rintro ⟨n, hn, -⟩; rw [h] at hn; cases hn)
  | some (q, n) => decidable_of_iff (q = p ∧ s.takes p n) (by
      constructor
      · rintro ⟨rfl, ht⟩
        exact ⟨n, h, ht⟩
      · rintro ⟨n', hn, ht⟩
        cases h.symm.trans hn
        exact ⟨rfl, ht⟩)

/-- What is admitted is what is let through. -/
theorem admission_eq_admitted_iff :
    s.admission call.context call.level = .admitted c l a ↔ s.LetsThrough call c l a := by
  constructor
  · intro h
    obtain ⟨hcontext, hlevel⟩ := admission_admitted h
    unfold admission at h
    rw [hlevel, hcontext] at h
    dsimp only at h
    cases hpasses : l.exceeds (s.levelOf s.defaults c) with
    | error f => rw [hpasses] at h; cases h
    | ok below =>
      rw [hpasses] at h
      cases below with
      | true => cases h
      | false =>
        cases happender : s.appenderOf s.defaults c with
        | none => rw [happender] at h; cases h
        | some a' =>
          rw [happender] at h
          cases h
          exact ⟨hcontext, Level.sameKey_of_ofValue hlevel, hpasses, happender⟩
  · intro h
    unfold admission
    rw [Level.ofValue_of_sameKey h.level, h.context]
    dsimp only
    rw [h.passes, h.appender]

end Store

/-- An entry is let through by a context that carries a producer. -/
def Call.Engages (call : Call) (s : Store) (p : ProducerRef) : Prop :=
  ∃ c l a, s.LetsThrough call c l a ∧ s.Carries c p

/-- Does an entry call a producer? It engages it, and its fields can be handed to a source that works on
them. -/
def Call.calls (call : Call) (s : Store) (p : ProducerRef) : Bool :=
  match s.admission call.context call.level with
  | .admitted c _ _ =>
    decide (s.Carries c p) &&
      (!(s.sourceOf c).isContextual || (s.supplied call.fields).copyIfPresent.isOk)
  | _ => false

instance (call : Call) (s : Store) (p : ProducerRef) : Decidable (call.Engages s p) :=
  match h : s.admission call.context call.level with
  | .admitted c l a => decidable_of_iff (s.Carries c p) (by
      constructor
      · intro hc
        exact ⟨c, l, a, Store.admission_eq_admitted_iff.1 h, hc⟩
      · rintro ⟨c', l', a', hl, hc⟩
        cases h.symm.trans (Store.admission_eq_admitted_iff.2 hl)
        exact hc)
  | .refused f => isFalse (by
      rintro ⟨c', l', a', hl, -⟩
      cases h.symm.trans (Store.admission_eq_admitted_iff.2 hl))
  | .filtered => isFalse (by
      rintro ⟨c', l', a', hl, -⟩
      cases h.symm.trans (Store.admission_eq_admitted_iff.2 hl))

/-- Nothing and every mapping can be handed to a source. -/
theorem Supplied.isOk_copyIfPresent {fields : Supplied} (h : fields.IsRegular) :
    fields.copyIfPresent.isOk = true := by
  cases fields with
  | nothing => rfl
  | fields f => rw [copyIfPresent_fields]; rfl
  | other v => exact h.elim

/-- If nothing or a mapping goes with it, an entry calls the producer that it engages. -/
theorem Call.calls_iff_engages (h : (s.supplied call.fields).IsRegular) :
    call.calls s p = true ↔ call.Engages s p := by
  unfold calls
  constructor
  · intro hcalls
    cases hadm : s.admission call.context call.level with
    | admitted c l a =>
      rw [hadm] at hcalls
      have hcarries : s.Carries c p := of_decide_eq_true (Bool.and_eq_true_iff.1 hcalls).1
      exact ⟨c, l, a, Store.admission_eq_admitted_iff.1 hadm, hcarries⟩
    | _ => rw [hadm] at hcalls; cases hcalls
  · intro hengages
    have hcopy := Supplied.isOk_copyIfPresent h
    obtain ⟨c, l, a, hlets, hcarries⟩ := hengages
    rw [Store.admission_eq_admitted_iff.2 hlets]
    simp [hcarries, hcopy]

/-! ## Counting along a list of dispatches -/

/-- A producer after some more calls. -/
def Producer.after (p : Producer) (n : Nat) : Producer := { p with calls := p.calls + n }

/-- From one store to another a producer is called some times, and nothing else becomes of it. -/
structure Store.Called (s : Store) (p : ProducerRef) (n : Nat) (s' : Store) : Prop where
  room : s'.producers.length = s.producers.length
  producer : s'.producer p = (s.producer p).after n

/-- From one store to another a producer is called once for each dispatch of a list that calls it, and each
one begins after the calls of those before it. -/
structure Store.Counts (s : Store) (p : ProducerRef) (es : List (Call × Store)) (s' : Store) : Prop where
  total : s.Called p (es.countP fun e => e.1.calls e.2 p) s'
  before : ∀ earlier e later, es = earlier ++ e :: later →
    s.Called p (earlier.countP fun e => e.1.calls e.2 p) e.2

namespace Store

variable {es es' : List (Call × Store)} {m n : Nat}

theorem producer_congr (h : s'.producers = s.producers) (p : ProducerRef) : s'.producer p = s.producer p := by
  unfold producer
  rw [h]

theorem Called.still (h : s'.producers = s.producers) : s.Called p 0 s' where
  room := by rw [h]
  producer := producer_congr h p

theorem Called.trans (h : s.Called p m s') (h' : s'.Called p n s'') : s.Called p (m + n) s'' where
  room := h'.room.trans h.room
  producer := by
    rw [h'.producer, h.producer]
    simp only [Producer.after, Nat.add_assoc]

theorem Counts.still (h : s'.producers = s.producers) : s.Counts p [] s' where
  total := .still h
  before _ _ _ he := absurd he.symm (List.append_ne_nil_of_right_ne_nil _ (List.cons_ne_nil _ _))

theorem Counts.trans (h : s.Counts p es s') (h' : s'.Counts p es' s'') : s.Counts p (es ++ es') s'' where
  total := by
    rw [List.countP_append]
    exact h.total.trans h'.total
  before earlier e later he := by
    -- The dispatch is one of the second list, or one of the first.
    rcases List.append_eq_append_iff.1 he with ⟨rest, hearlier, hes'⟩ | ⟨rest, hes, hrest⟩
    · rw [hearlier, List.countP_append]
      exact h.total.trans (h'.before rest e later hes')
    · cases rest with
      | nil =>
        rw [List.append_nil] at hes
        rw [← hes]
        exact h.total.trans (h'.before [] e later hrest.symm)
      | cons e' rest =>
        obtain ⟨rfl, -⟩ := List.cons.inj hrest
        exact h.before earlier e rest hes

/-- What comes after a failure or a result that changes no producer. -/
theorem Counts.then_still (h : s.Counts p es s') (h' : s''.producers = s'.producers) :
    s.Counts p es s'' := by
  have hall := h.trans (Counts.still h')
  rwa [List.append_nil] at hall

/-- A dispatch by itself, without those inside it. -/
theorem Counts.own (h : s.Called p (if call.calls s p then 1 else 0) s') : s.Counts p [(call, s)] s' where
  total := by
    rw [List.countP_singleton]
    exact h
  before earlier e later he := by
    obtain ⟨rfl, rfl⟩ : earlier = [] ∧ e = (call, s) := by
      cases earlier with
      | nil => exact ⟨rfl, (List.cons.inj he).1.symm⟩
      | cons e' earlier => simp at he
    exact .still rfl

theorem producer_counted (h : p.index < s.producers.length) :
    (s.counted p).producer p = (s.producer p).after 1 := by
  unfold counted producer Producer.after
  simp [h]

theorem producer_counted_of_ne (h : q ≠ p) : (s.counted q).producer p = s.producer p := by
  have hi : q.index ≠ p.index := fun hi => h (by cases p; cases q; simpa using hi)
  unfold counted producer
  simp [List.getElem?_set_ne hi]

end Store

/-! ## What changes no producer -/

/-- A session leaves every producer as it is. -/
def Session.IsStill {α : Type} (x : Session α) : Prop := ∀ ps, x.Keeps (·.producers = ps)

namespace Session

variable {α : Type} {x : Session α}

theorem IsStill.leaves (h : x.IsStill) (s : Store) : (x.leaves s).producers = s.producers :=
  (h s.producers).leaves rfl

/-- What makes mappings and does nothing else leaves every producer as it is. -/
theorem IsStill.of_roomy (h : ∀ ps, Store.Roomy (·.producers = ps) → x.Keeps (·.producers = ps)) : x.IsStill :=
  fun ps => h ps fun _ _ hs => hs

end Session

theorem configure_isStill (changes : List Change) : (configure changes).IsStill := by
  intro ps s hs
  refine .of_leaves ?_
  have h := configure_outcome s changes
  cases hfit : Change.allFit changes with
  | false =>
    obtain ⟨f, hf⟩ := h.refused hfit
    rw [Session.leaves_error hf]
    exact hs
  | true =>
    cases hshow : s.shows changes with
    | true =>
      obtain ⟨shown, hok⟩ := h.returned hfit hshow
      rw [Session.leaves_ok hok]
      exact hs
    | false =>
      rw [Session.leaves_error (h.unshown hfit hshow)]
      exact hs

theorem resetDefaults_isStill (environment : Environment) : (resetDefaults environment).IsStill :=
  fun _ _ hs => ⟨hs, trivial⟩

theorem mergedFields_isStill (explicit produced : Handle) :
    (do let (_, fields) ← mergeHandles explicit produced; return fields : Session Handle).IsStill :=
  .of_roomy fun _ hI => mergedFields_roomy hI explicit produced

namespace Dispatch

/-- Once the fields of an entry are made, no producer is called for it. -/
theorem deliver_still (hx : (entryFields nested c l call).leaves s = s₁) :
    ((deliver nested c l a call).leaves s).producers = s₁.producers := by
  cases hfields : entryFields nested c l call s with
  | error f s₁ =>
    obtain rfl := (Session.leaves_error hfields).symm.trans hx
    rw [Session.leaves_error (deliver_of_fields_error hfields)]
  | ok h s₁ =>
    obtain rfl := (Session.leaves_ok hfields).symm.trans hx
    cases hm : (formatMessage call.args call.templated).2 with
    | error f => rw [Session.leaves_error (deliver_of_mismatch hfields hm)]
    | ok msg =>
      have hrun := deliver_run (a := a) rfl hfields hm
      cases hr : s₁.recordOf s.defaults.debug ⟨a, some c, .level l, s₁.supplied h, .text msg⟩ with
      | error f =>
        rw [hr] at hrun
        rw [Session.leaves_error hrun]
      | ok records =>
        rw [hr] at hrun
        dsimp only at hrun
        rw [Session.leaves_congr hrun, receive_followUp_leaves]
        -- The appender changes its sink and mappings only.
        obtain ⟨ms, as, out, hs₂, -⟩ := receive_handled a (some c) (.level l) h (.text msg)
          (s₁.noted (call.mismatches ++ records) ⟨a, some c, .level l, s₁.supplied h, .text msg⟩)
        rw [hs₂]
        rfl

end Dispatch

/-! ## The calls inside one entry -/

/-- The dispatches inside those that `nested` makes are those of `give`, and a producer is called once for
each of them that calls it. -/
def NestedCounts (nested : Call → Session Unit) (p : ProducerRef) (give : Call × Store → List (Call × Store)) :
    Prop :=
  ∀ sent : Call × Store, p.index < sent.2.producers.length →
    sent.2.Counts p (give sent) ((nested sent.1).leaves sent.2)

variable {give : Call × Store → List (Call × Store)}

namespace Produce

/-- Sending an entry calls no producer, but for the dispatch itself. -/
theorem act_dispatch_counts (hn : NestedCounts nested p give) (hp : p.index < s.producers.length)
    (q : ProducerRef) (scope : Scope) (output : Fields) (target : Destination) (level : Value)
    (fields : Supplied) (args : List Value) :
    s.Counts p ((sent (.dispatch target level fields args) s).flatMap give)
      ((act nested q scope output (.dispatch target level fields args)).leaves s) := by
  have hstill := (Session.IsStill.of_roomy fun _ hI => sending_roomy hI target level fields args).leaves s
  rw [act_dispatch]
  cases hsend : sending target level fields args s with
  | error f s₁ =>
    have hsent : sent (.dispatch target level fields args) s = [] := by simp only [sent, hsend]
    rw [Session.leaves_error hsend] at hstill
    rw [hsent, Session.leaves_error (Session.run_bind_error hsend)]
    exact .still hstill
  | ok call s₁ =>
    have hsent : sent (.dispatch target level fields args) s = [(call, s₁)] := by simp only [sent, hsend]
    rw [Session.leaves_ok hsend] at hstill
    have hroom : p.index < s₁.producers.length := by rw [hstill]; exact hp
    -- What is returned after the entry changes nothing.
    have hleaves : (do nested call; return output : Session Fields).leaves s₁ = (nested call).leaves s₁ := by
      cases hx : nested call s₁ with
      | ok _ s₂ => rw [Session.leaves_congr (Session.run_seq_ok hx), Session.leaves_ok hx]; rfl
      | error f s₂ => rw [Session.leaves_error (Session.run_bind_error hx), Session.leaves_error hx]
    rw [hsent, Session.leaves_congr (Session.run_bind_ok hsend), hleaves, List.flatMap_singleton]
    exact (Store.Counts.still hstill).trans (hn (call, s₁) hroom)

/-- An action calls no producer, but for the entry that it sends. -/
theorem act_counts (hn : NestedCounts nested p give) (hp : p.index < s.producers.length) (q : ProducerRef)
    (scope : Scope) (output : Fields) (action : Action) :
    s.Counts p ((sent action s).flatMap give) ((act nested q scope output action).leaves s) := by
  cases action with
  | dispatch target level fields args => exact act_dispatch_counts hn hp q scope output target level fields args
  | configure changes =>
    have hstill : (do configure changes; return output : Session Fields).IsStill := fun ps =>
      .bind (configure_isStill changes ps) fun _ => .pure _
    exact .still (hstill.leaves s)
  | reset environment =>
    have hstill : (do resetDefaults environment; return output : Session Fields).IsStill := fun ps =>
      .bind (resetDefaults_isStill environment ps) fun _ => .pure _
    exact .still (hstill.leaves s)
  | _ =>
    refine .still ?_
    have hedits : Store.Editing (fun _ => True) (·.producers = s.producers) := ⟨fun _ _ _ h => h⟩
    exact (act_inner_keeps hedits (fun _ _ => trivial) q output rfl).leaves rfl

/-- An action is followed by the rest of its run, unless it fails. -/
theorem act_then_counts {scope : Scope} {output : Fields} {action : Action} {rest : List Action}
    (hact : s.Counts p ((sent action s).flatMap give) ((act nested q scope output action).leaves s))
    (hrest : ∀ out s₁, act nested q scope output action s = .ok out s₁ →
      s₁.Counts p ((sends nested q scope out rest s₁).flatMap give)
        ((run nested q scope out rest).leaves s₁)) :
    s.Counts p ((sent action s ++ match act nested q scope output action s with
        | .ok out s₁ => sends nested q scope out rest s₁
        | .error _ _ => []).flatMap give)
      ((act nested q scope output action >>= fun out => run nested q scope out rest).leaves s) := by
  rw [List.flatMap_append]
  cases hx : act nested q scope output action s with
  | error f s₁ =>
    rw [Session.leaves_error hx] at hact
    rw [Session.leaves_error (Session.run_bind_error hx), List.flatMap_nil, List.append_nil]
    exact hact
  | ok out s₁ =>
    rw [Session.leaves_ok hx] at hact
    rw [Session.leaves_congr (Session.run_bind_ok hx)]
    exact hact.trans (hrest out s₁ hx)

theorem run_counts (hn : NestedCounts nested p give) (hp : p.index < s.producers.length) (q : ProducerRef)
    (scope : Scope) (output : Fields) (program : List Action) :
    s.Counts p ((sends nested q scope output program s).flatMap give)
      ((run nested q scope output program).leaves s) := by
  induction program generalizing output s with
  | nil => exact .still rfl
  | cons action rest ih =>
    have hact := act_counts hn hp q scope output action
    have hrest : ∀ out s₁, act nested q scope output action s = .ok out s₁ →
        s₁.Counts p ((sends nested q scope out rest s₁).flatMap give)
          ((run nested q scope out rest).leaves s₁) := by
      intro out s₁ hx
      have hroom := hact.total.room
      rw [Session.leaves_ok hx] at hroom
      exact ih (hroom ▸ hp) out
    -- Two actions end the run; any other one is followed by the rest.
    cases action with
    | giveNothing => exact .still rfl
    | giveFields => exact .still rfl
    | _ => exact act_then_counts hact hrest

/-- A call with as many arguments as the producer takes is counted, and then the producer runs. -/
theorem invoke_of_takes {n : Nat} (ht : s.takes q n) (scope : Scope) :
    invoke nested (.producer q) n scope s =
      run nested q scope .empty (s.producer q).program (s.counted q) := by
  rw [invoke_run]
  unfold Store.takes at ht
  cases hsig : (s.producer q).parameters with
  | none => rfl
  | some signature =>
    rw [hsig] at ht
    dsimp only
    rw [if_pos ht]
    rfl

/-- A call with other arguments fails, and the producer does not run. -/
theorem invoke_of_not_takes {n : Nat} (ht : ¬ s.takes q n) (scope : Scope) :
    ∃ f, invoke nested (.producer q) n scope s = .error f s := by
  rw [invoke_run]
  unfold Store.takes at ht
  cases hsig : (s.producer q).parameters with
  | none =>
    rw [hsig] at ht
    exact absurd rfl ht
  | some signature =>
    rw [hsig] at ht
    dsimp only
    rw [if_neg ht]
    exact ⟨_, rfl⟩

end Produce

/-- The store once a source has called its producer, if it does. -/
def Store.entered (s : Store) (source : Source) : Store :=
  match source.call? with
  | some (q, n) => if s.takes q n then s.counted q else s
  | none => s

theorem Store.room_entered (s : Store) (source : Source) :
    (s.entered source).producers.length = s.producers.length := by
  unfold entered counted
  split
  · split
    · exact List.length_set
    · rfl
  · rfl

/-- A source calls the producer that its context carries, and no other one. -/
theorem Store.producer_entered (hp : p.index < s.producers.length) (c : ContextRef) :
    (s.entered (s.sourceOf c)).producer p = (s.producer p).after (if s.Carries c p then 1 else 0) := by
  unfold entered
  cases hcall : (s.sourceOf c).call? with
  | none =>
    have hno : ¬ s.Carries c p := by
      rintro ⟨n, hn, -⟩
      rw [hcall] at hn
      cases hn
    rw [if_neg hno]
    rfl
  | some called =>
    obtain ⟨q, n⟩ := called
    have hcarries : s.Carries c p ↔ q = p ∧ s.takes q n := by
      constructor
      · rintro ⟨n', hn, ht⟩
        cases hcall.symm.trans hn
        exact ⟨rfl, ht⟩
      · rintro ⟨rfl, ht⟩
        exact ⟨n, hcall, ht⟩
    dsimp only
    by_cases ht : s.takes q n
    · rw [if_pos ht]
      by_cases hq : q = p
      · subst hq
        rw [if_pos (hcarries.2 ⟨rfl, ht⟩), producer_counted hp]
      · rw [if_neg (fun h => hq (hcarries.1 h).1), producer_counted_of_ne hq]
        rfl
    · rw [if_neg ht, if_neg (fun h => ht (hcarries.1 h).2)]
      rfl

theorem Produce.invoke_counts (hn : NestedCounts nested p give) (hp : p.index < s.producers.length)
    (q : ProducerRef) (n : Nat) (scope : Scope) :
    (if s.takes q n then s.counted q else s).Counts p
      ((invoked nested (.producer q) n scope s).flatMap give)
      ((invoke nested (.producer q) n scope).leaves s) := by
  have hroom : p.index < (s.counted q).producers.length := by simpa [Store.counted] using hp
  have hsent : invoked nested (.producer q) n scope s = if s.takes q n then
      sends nested q scope .empty (s.producer q).program (s.counted q) else [] := rfl
  rw [hsent]
  by_cases ht : s.takes q n
  · rw [if_pos ht, if_pos ht, Session.leaves_congr (invoke_of_takes ht scope)]
    exact run_counts hn hroom q scope .empty (s.producer q).program
  · obtain ⟨f, hf⟩ : ∃ f, invoke nested (.producer q) n scope s = .error f s := invoke_of_not_takes ht scope
    rw [if_neg ht, if_neg ht, Session.leaves_error hf]
    exact .still rfl

/-- Once it has called its producer, if it does, a source calls no other one. -/
theorem resolveSource_counts (hn : NestedCounts nested p give) (hp : p.index < s.producers.length)
    (source : Source) (scope : Scope) :
    (s.entered source).Counts p ((source.sends nested scope s).flatMap give)
      ((resolveSource nested source scope).leaves s) := by
  cases source with
  | lazy of =>
    cases of with
    | producer q => exact Produce.invoke_counts hn hp q 0 {}
    | _ => exact .still rfl
  | contextual of =>
    cases of with
    | producer q => exact Produce.invoke_counts hn hp q 4 scope
    | _ => exact .still rfl
  | _ => exact .still rfl

theorem resolveFields_counts (hn : NestedCounts nested p give) (hp : p.index < s.producers.length)
    (source : Source) (scope : Scope) :
    (s.entered source).Counts p ((source.sends nested scope s).flatMap give)
      ((resolveFields nested source scope).leaves s) := by
  have hsource := resolveSource_counts hn hp source scope
  unfold resolveFields
  cases ha : source.isAbsent with
  | true =>
    cases source with
    | value v => exact .still rfl
    | _ => cases ha
  | false =>
    rw [if_neg Bool.false_ne_true]
    cases hx : resolveSource nested source scope s with
    | error f s₁ =>
      rw [Session.leaves_error hx] at hsource
      rw [Session.leaves_error (Session.run_bind_error hx)]
      exact hsource
    | ok produced s₁ =>
      rw [Session.leaves_ok hx] at hsource
      rw [Session.leaves_congr (Session.run_bind_ok hx)]
      exact hsource.then_still ((mergedFields_isStill scope.fields produced).leaves s₁)

/-- Where a source calls its producer depends on the producers alone. -/
theorem Store.producer_entered_congr (h : s'.producers = s.producers) (source : Source) :
    (s'.entered source).producer p = (s.entered source).producer p := by
  have hproducer : ∀ q, s'.producer q = s.producer q := producer_congr h
  unfold entered
  cases source.call? with
  | none => exact hproducer p
  | some called =>
    have htakes : s'.takes called.1 called.2 = s.takes called.1 called.2 := by
      unfold takes
      rw [hproducer]
    dsimp only
    rw [htakes]
    split
    · unfold producer counted
      dsimp only
      rw [h, hproducer]
    · exact hproducer p

namespace Dispatch

/-- Explicit fields can be handed to every source but to one that works on a copy which cannot be made. -/
theorem explicitFields_outcome (source : Source) (fields : Handle) (s : Store) :
    ((explicitFields source fields).outcome s).isOk =
      (!source.isContextual || (s.supplied fields).copyIfPresent.isOk) := by
  unfold explicitFields
  cases source.isContextual with
  | true =>
    cases hc : (s.supplied fields).copyIfPresent with
    | ok f =>
      have hcopy : Session.newCopy fields s =
          .ok ⟨s.mappings.length⟩ { s with mappings := s.mappings ++ [f] } := by
        unfold Session.newCopy
        rw [Session.run_bind_ok Session.run_get, hc]
        rfl
      rw [if_pos rfl, Session.outcome_congr (Session.run_bind_ok hcopy)]
      rfl
    | error f =>
      have hcopy : Session.newCopy fields s = .error f s := by
        unfold Session.newCopy
        rw [Session.run_bind_ok Session.run_get, hc]
        rfl
      rw [if_pos rfl, Session.outcome_error (Session.run_bind_error hcopy)]
      rfl
  | false =>
    rw [if_neg Bool.false_ne_true, Session.outcome_congr (Session.run_bind_ok Session.run_get)]
    cases s.isPresent fields with
    | true => rfl
    | false => rfl

/-- The fields of an entry come with one call of the producer that its context carries, if they can be
handed to it, and with the calls inside the entries that it sends. -/
theorem entryFields_counts (hn : NestedCounts nested p give) (hp : p.index < s.producers.length)
    (hadm : s.admission call.context call.level = .admitted c l a) :
    s.Counts p ((call, s) :: (sends nested c l call s).flatMap give)
      ((entryFields nested c l call).leaves s) := by
  have hstill :=
    (Session.IsStill.of_roomy fun _ hI => explicitFields_roomy hI (s.sourceOf c) call.fields).leaves s
  have hok := explicitFields_outcome (s.sourceOf c) call.fields s
  have hcalls : call.calls s p = (decide (s.Carries c p) && (!(s.sourceOf c).isContextual ||
      (s.supplied call.fields).copyIfPresent.isOk)) := by
    unfold Call.calls
    rw [hadm]
  rw [← hok] at hcalls
  have hrun : entryFields nested c l call s = (do
      let explicit ← explicitFields (s.sourceOf c) call.fields
      resolveFields nested (s.sourceOf c)
        { context := some c, level := .level l, fields := explicit, args := call.args }) s := rfl
  rw [Session.leaves_congr hrun]
  unfold sends
  cases hx : explicitFields (s.sourceOf c) call.fields s with
  | error f s₁ =>
    rw [Session.leaves_error hx] at hstill
    rw [Session.outcome_error hx] at hcalls
    rw [Session.leaves_error (Session.run_bind_error hx)]
    have hno : call.calls s p = false := by rw [hcalls]; exact Bool.and_false _
    refine .own ?_
    rw [hno]
    exact .still hstill
  | ok explicit s₁ =>
    rw [Session.leaves_ok hx] at hstill
    rw [Session.outcome_ok hx] at hcalls
    rw [Session.leaves_congr (Session.run_bind_ok hx)]
    have hown : s.Counts p [(call, s)] (s₁.entered (s.sourceOf c)) := by
      have hyes : call.calls s p = decide (s.Carries c p) := by rw [hcalls]; exact Bool.and_true _
      refine .own ⟨by rw [Store.room_entered, hstill], ?_⟩
      rw [Store.producer_entered_congr hstill, Store.producer_entered hp, hyes]
      simp only [decide_eq_true_eq]
    exact hown.trans (resolveFields_counts hn (hstill ▸ hp) _ _)

end Dispatch

end ContextLog
