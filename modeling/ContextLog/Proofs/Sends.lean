import ContextLog.Proofs.Dispatching
import ContextLog.Proofs.Frame
import ContextLog.Proofs.Settings
/-!
# The entries that a producer sends

While the fields of an entry are made, a producer may send entries itself. `Dispatch.sends` lists them in
the order in which they are sent, each with the store that it is sent from. Between two of them only what
a producer can do by itself has happened (`Store.Quiet`), and the first one that fails is the last one and
its failure the result: this is what `Dispatch.entryFields_trails` says, so that whatever is to be told of
an entry and those inside it can be told by going along that list (`Trail.gathers`).
-/

namespace ContextLog

/-- Does a report belong to an entry? The others are on settings. -/
def Report.isOfEntry (r : Report) : Bool := r.message = "append" || r.message = "template_mismatch"

/-- Does an action leave the defaults alone? -/
def Action.sparesDefaults : Action → Bool
  | .configure _ | .reset _ => false
  | _ => true

namespace Store

/-- No producer changes the defaults. -/
def SparesDefaults (s : Store) : Prop := ∀ p, ∀ action ∈ (s.producer p).program, action.sparesDefaults

/-- What a producer can do by itself: mappings are made and edited, calls are counted, and the defaults
are changed and reported on if its program says so. -/
structure Quiet (s s' : Store) : Prop where
  same : ∃ mappings producers reports defaults,
    s' = { s with mappings, producers, journal := s.journal ++ reports, defaults } ∧
      ∀ r ∈ reports, r.isOfEntry = false
  room : s.mappings.length ≤ s'.mappings.length
  programs : ∀ p, (s'.producer p).program = (s.producer p).program
  defaults : s.SparesDefaults → s'.defaults = s.defaults

variable {s s' s'' : Store}

theorem Quiet.refl (s : Store) : s.Quiet s where
  same := ⟨s.mappings, s.producers, [], s.defaults, by rw [List.append_nil], nofun⟩
  room := Nat.le_refl _
  programs _ := rfl
  defaults _ := rfl

theorem SparesDefaults.of_programs (h : s.SparesDefaults)
    (hp : ∀ p, (s'.producer p).program = (s.producer p).program) : s'.SparesDefaults := fun p action ha =>
  h p action (hp p ▸ ha)

theorem Quiet.trans (h : s.Quiet s') (h' : s'.Quiet s'') : s.Quiet s'' where
  same := by
    obtain ⟨ms, ps, rs, d, rfl, hrs⟩ := h.same
    obtain ⟨ms', ps', rs', d', rfl, hrs'⟩ := h'.same
    refine ⟨ms', ps', rs ++ rs', d', by simp only [List.append_assoc], fun r hr => ?_⟩
    rcases List.mem_append.1 hr with hr | hr
    · exact hrs r hr
    · exact hrs' r hr
  room := Nat.le_trans h.room h'.room
  programs p := (h'.programs p).trans (h.programs p)
  defaults hd := (h'.defaults (hd.of_programs h.programs)).trans (h.defaults hd)

theorem Quiet.of_parts {mappings : List Fields} {producers : List Producer}
    (hroom : s.mappings.length ≤ mappings.length)
    (hprograms : ∀ p, (({ s with mappings, producers } : Store).producer p).program =
      (s.producer p).program) : s.Quiet { s with mappings, producers } where
  same := ⟨mappings, producers, [], s.defaults, by rw [List.append_nil], nofun⟩
  room := hroom
  programs := hprograms
  defaults _ := rfl

/-- A mapping that is not in the store yet. -/
def Lacks (s : Store) (m : MappingRef) : Prop := s.mappings.length ≤ m.index

/-- To be reached by what a producer does by itself is kept by all that happens inside a producer. -/
theorem Quiet.calm {owned : MappingRef → Prop} (hfresh : ∀ s', s.Quiet s' → owned ⟨s'.mappings.length⟩) :
    Calm owned s.Quiet where
  edited m f _ h := h.trans (.of_parts (by simp) fun _ => rfl)
  called p h := h.trans (.of_parts (Nat.le_refl _) (program_called _ p))
  allotted f h := h.trans (.of_parts (by simp) fun _ => rfl)
  fresh h := hfresh _ h

/-- All that happens inside a producer, whichever mappings it edits. -/
theorem Quiet.calm_all (s : Store) : Calm (fun _ => True) s.Quiet := calm fun _ _ => trivial

theorem Quiet.configured {d : Defaults} {rs : List Report} (hs : ¬ s.SparesDefaults)
    (hrs : ∀ r ∈ rs, r.isOfEntry = false) :
    s.Quiet { s with defaults := d, journal := s.journal ++ rs } where
  same := ⟨_, _, rs, d, rfl, hrs⟩
  room := Nat.le_refl _
  programs _ := rfl
  defaults h := absurd h hs

end Store

/-- An entry is sent by an action of some program, from a store to which nothing has led but what a producer
does by itself. Its fields have been made for it on the way. -/
structure Store.SentFrom (s : Store) (call : Call) (s' : Store) : Prop where
  quiet : s.Quiet s'
  fresh : call.fields.IsOwned s.Lacks
  sender : ∃ p, ∃ action ∈ (s.producer p).program, action.Sends s' call

theorem Store.SentFrom.after {s s₁ s' : Store} {call : Call} (h : s.Quiet s₁) (hs : s₁.SentFrom call s') :
    s.SentFrom call s' where
  quiet := h.trans hs.quiet
  fresh := hs.fresh.mono fun _ => Nat.le_trans h.room
  sender := by
    obtain ⟨p, action, ha, hsends⟩ := hs.sender
    exact ⟨p, action, h.programs p ▸ ha, hsends⟩

/-! ## Going along a list of entries -/

/-- From one store to another by way of entries that are sent, each from its own store, with nothing but
what a producer does by itself in between. An entry that fails is the last one. -/
inductive Trail (nested : Call → Session Unit) :
    Store → List (Call × Store) → Option Failure → Store → Prop
  | stay {s s'} : s.Quiet s' → Trail nested s [] none s'
  | sent {s s₁ s₂ s' call rest o} : s.SentFrom call s₁ → nested call s₁ = .ok () s₂ →
      Trail nested s₂ rest o s' → Trail nested s ((call, s₁) :: rest) o s'
  | failed {s s₁ s₂ call f} : s.SentFrom call s₁ → nested call s₁ = .error f s₂ →
      Trail nested s [(call, s₁)] (some f) s₂

variable {nested : Call → Session Unit} {s s₁ s' : Store} {es es' : List (Call × Store)}
  {o : Option Failure}

theorem Trail.quiet (h : s.Quiet s₁) (ht : Trail nested s₁ es o s') : Trail nested s es o s' := by
  cases ht with
  | stay hq => exact .stay (h.trans hq)
  | sent hs hn hrest => exact .sent (hs.after h) hn hrest
  | failed hs hn => exact .failed (hs.after h) hn

theorem Trail.append (h : Trail nested s es none s₁) (h' : Trail nested s₁ es' o s') :
    Trail nested s (es ++ es') o s' := by
  generalize ho : (none : Option Failure) = o₁ at h
  induction h with
  | stay hq => exact h'.quiet hq
  | sent hs hn _ ih => exact .sent hs hn (ih h' ho)
  | failed => cases ho

/-- What is gathered along a trail: nothing in between, and for each entry what its dispatch gives. -/
theorem Trail.gathers {β : Type} {G : Store → List β → Store → Prop}
    (hquiet : ∀ s s', s.Quiet s' → G s [] s')
    (htrans : ∀ s xs s' ys s'', G s xs s' → G s' ys s'' → G s (xs ++ ys) s'')
    (give : Call × Store → List β) (h : Trail nested s es o s')
    (hgive : ∀ sent ∈ es, G sent.2 (give sent) ((nested sent.1).leaves sent.2)) :
    G s (es.flatMap give) s' := by
  induction h with
  | stay hq => exact hquiet _ _ hq
  | sent hs hn _ ih =>
    obtain ⟨hhead, hrest⟩ := List.forall_mem_cons.1 hgive
    rw [Session.leaves_ok hn] at hhead
    exact htrans _ [] _ _ _ (hquiet _ _ hs.quiet) (htrans _ _ _ _ _ hhead (ih hrest))
  | failed hs hn =>
    have hhead := hgive _ List.mem_cons_self
    rw [Session.leaves_error hn] at hhead
    have hall := htrans _ [] _ _ _ (hquiet _ _ hs.quiet) hhead
    simpa using hall

/-- What holds from the beginning of a trail to its end. -/
theorem Trail.relates {R : Store → Store → Prop} (hquiet : ∀ s s', s.Quiet s' → R s s')
    (htrans : ∀ s s' s'', R s s' → R s' s'' → R s s'') (h : Trail nested s es o s')
    (hn : ∀ sent ∈ es, R sent.2 ((nested sent.1).leaves sent.2)) : R s s' :=
  h.gathers (G := fun s _ s' => R s s') hquiet (fun s _ s' _ s'' => htrans s s' s'')
    (fun _ => ([] : List Unit)) hn

/-- What holds from the beginning of a trail to the stores from which its entries are sent. -/
theorem Trail.reaches {R : Store → Store → Prop} (hquiet : ∀ s s', s.Quiet s' → R s s')
    (htrans : ∀ s s' s'', R s s' → R s' s'' → R s s'') (h : Trail nested s es o s')
    (hn : ∀ sent ∈ es, R sent.2 ((nested sent.1).leaves sent.2)) :
    ∀ sent ∈ es, ∃ s₁, R s s₁ ∧ s₁.SentFrom sent.1 sent.2 := by
  induction h with
  | stay hq => exact fun sent hmem => absurd hmem List.not_mem_nil
  | @sent s s₁ s₂ s' call rest o hs hok _ ih =>
    obtain ⟨hhead, hrest⟩ := List.forall_mem_cons.1 hn
    rw [Session.leaves_ok hok] at hhead
    have hreach : R s s₂ := htrans s s₁ s₂ (hquiet s s₁ hs.quiet) hhead
    refine List.forall_mem_cons.2 ⟨⟨s, hquiet s s (.refl s), hs⟩, fun sent hmem => ?_⟩
    obtain ⟨s₃, hlater, hsent⟩ := ih hrest sent hmem
    exact ⟨s₃, htrans s s₂ s₃ hreach hlater, hsent⟩
  | failed hs hn =>
    exact List.forall_mem_cons.2 ⟨⟨_, hquiet _ _ (.refl _), hs⟩, fun sent hmem => absurd hmem List.not_mem_nil⟩

/-- An entry that fails ends the trail. -/
theorem Trail.failure (h : Trail nested s es o s') {sent : Call × Store} (hmem : sent ∈ es)
    {f : Failure} (hf : (nested sent.1).outcome sent.2 = .error f) : o = some f := by
  induction h with
  | stay hq => cases hmem
  | sent hs hok _ ih =>
    rcases List.mem_cons.1 hmem with rfl | hmem
    · rw [Session.outcome_ok hok] at hf
      cases hf
    · exact ih hmem
  | failed hs hn =>
    obtain rfl := List.mem_singleton.1 hmem
    rw [Session.outcome_error hn] at hf
    cases hf
    rfl

/-- Entries leave the programs of producers as they are. -/
def NestedPrograms (nested : Call → Session Unit) : Prop :=
  ∀ call s p, (((nested call).leaves s).producer p).program = (s.producer p).program

theorem Trail.programs (hn : NestedPrograms nested) (h : Trail nested s es o s') (p : ProducerRef) :
    (s'.producer p).program = (s.producer p).program :=
  h.relates (R := fun s s' => (s'.producer p).program = (s.producer p).program)
    (fun _ _ hq => hq.programs p) (fun _ _ _ h h' => h'.trans h) fun sent _ => hn sent.1 sent.2 p

/-! ## Sessions that send entries -/

/-- A session goes along a list of entries. If one of them fails, the session fails as it does. -/
def Session.Trails {α : Type} (x : Session α) (nested : Call → Session Unit) (s : Store)
    (es : List (Call × Store)) : Prop :=
  ∃ o, Trail nested s es o (x.leaves s) ∧ ∀ f, o = some f → x.outcome s = .error f

namespace Session

variable {α β : Type} {x : Session α} {f : α → Session β}

theorem Trails.of_quiet (h : s.Quiet (x.leaves s)) : x.Trails nested s [] := ⟨none, .stay h, nofun⟩

theorem Trails.programs (hn : NestedPrograms nested) (h : x.Trails nested s es) (p : ProducerRef) :
    ((x.leaves s).producer p).program = (s.producer p).program := by
  obtain ⟨o, ht, -⟩ := h
  exact ht.programs hn p

theorem Trails.bind_ok {a : α} (hx : x s = .ok a s₁) (h : x.Trails nested s es)
    (hf : (f a).Trails nested s₁ es') : (x >>= f).Trails nested s (es ++ es') := by
  obtain ⟨o, ht, ho⟩ := h
  obtain ⟨o', ht', ho'⟩ := hf
  rw [leaves_ok hx] at ht
  have hrun : (x >>= f) s = f a s₁ := run_bind_ok hx
  refine ⟨o', ?_, fun e he => ?_⟩
  · rw [leaves_congr hrun]
    cases o with
    | none => exact ht.append ht'
    | some e =>
      have he := ho e rfl
      rw [outcome_ok hx] at he
      cases he
  · rw [outcome_congr hrun]
    exact ho' e he

theorem Trails.bind_error {e : Failure} (hx : x s = .error e s₁) (h : x.Trails nested s es) :
    (x >>= f).Trails nested s es := by
  obtain ⟨o, ht, ho⟩ := h
  have hrun : (x >>= f) s = .error e s₁ := run_bind_error hx
  rw [leaves_error hx] at ht
  refine ⟨o, by rwa [leaves_error hrun], fun e' he' => ?_⟩
  have houtcome := ho e' he'
  rw [outcome_error hx] at houtcome
  rw [outcome_error hrun]
  cases houtcome
  rfl

/-- What a session does once only what a producer does by itself has happened. -/
theorem Trails.after_quiet {y : Session α} (h : x s = y s₁) (hq : s.Quiet s₁)
    (hy : y.Trails nested s₁ es) : x.Trails nested s es := by
  obtain ⟨o, ht, ho⟩ := hy
  rw [← leaves_congr h] at ht
  rw [← outcome_congr h] at ho
  exact ⟨o, ht.quiet hq, ho⟩

theorem Trails.then_pure {α β : Type} {x : Session α} {f : α → β} (h : x.Trails nested s es) :
    (do let a ← x; return f a : Session β).Trails nested s es := by
  cases hx : x s with
  | error e s₁ => exact h.bind_error hx
  | ok a s₁ =>
    have hpure : (pure (f a) : Session β).Trails nested s₁ [] := .of_quiet (.refl s₁)
    have hall := Trails.bind_ok (f := fun a => pure (f a)) hx h hpure
    rwa [List.append_nil] at hall

end Session

/-! ## Actions and runs -/

theorem seedLevel_reports (setting : Option Value) :
    ∀ r ∈ (Defaults.seedLevel setting).2, r.isOfEntry = false := by
  unfold Defaults.seedLevel
  split
  · nofun
  · nofun
  · split
    · nofun
    · split
      · nofun
      · simp [Report.isOfEntry, Report.levelIgnored]

theorem seedDebug_reports (setting : Option Value) :
    ∀ r ∈ (Defaults.seedDebug setting).2, r.isOfEntry = false := by
  unfold Defaults.seedDebug
  split
  · nofun
  · nofun
  · split
    · nofun
    · simp [Report.isOfEntry, Report.debugIgnored]

theorem resetDefaults_quiet (hs : ¬ s.SparesDefaults) (environment : Environment) :
    s.Quiet ((resetDefaults environment).leaves s) := by
  refine Store.Quiet.configured hs fun r hr => ?_
  rcases List.mem_append.1 hr with hr | hr
  · exact seedLevel_reports _ r hr
  · exact seedDebug_reports _ r hr

theorem configure_quiet (hs : ¬ s.SparesDefaults) (changes : List Change) :
    s.Quiet ((configure changes).leaves s) := by
  have h := configure_outcome s changes
  cases hfit : Change.allFit changes with
  | false =>
    obtain ⟨f, hf⟩ := h.refused hfit
    rw [Session.leaves_error hf]
    exact .refl s
  | true =>
    cases hshow : s.shows changes with
    | true =>
      obtain ⟨shown, hok⟩ := h.returned hfit hshow
      rw [Session.leaves_ok hok]
      exact .configured hs (by simp [Report.isOfEntry, Report.configured])
    | false =>
      rw [Session.leaves_error (h.unshown hfit hshow)]
      have hquiet : s.Quiet { s with
          defaults := s.defaults.changed (Change.last? changes), journal := s.journal ++ [] } :=
        .configured hs nofun
      rwa [List.append_nil] at hquiet

namespace Produce

/-- The entry that an action sends, once its context has been found and its fields have been made. -/
def sending (target : Destination) (level : Value) (fields : Supplied) (args : List Value) :
    Session Call := do
  let context ← destination target
  let fields ← sentFields fields
  return { context, level, fields, args }

/-- The entry that an action sends, if it comes to do so, with the store that it is sent from. -/
def sent (action : Action) (s : Store) : List (Call × Store) :=
  match action with
  | .dispatch target level fields args =>
    match sending target level fields args s with
    | .ok call s₁ => [(call, s₁)]
    | .error _ _ => []
  | _ => []

/-- The entries that a run of actions sends, in order. -/
def sends (nested : Call → Session Unit) (p : ProducerRef) (scope : Scope) (output : Fields) :
    List Action → Store → List (Call × Store)
  | [], _ | .giveNothing :: _, _ | .giveFields :: _, _ => []
  | action :: rest, s =>
    sent action s ++ match act nested p scope output action s with
      | .ok output s' => sends nested p scope output rest s'
      | .error _ _ => []

theorem act_dispatch (p : ProducerRef) (scope : Scope) (output : Fields) (target : Destination)
    (level : Value) (fields : Supplied) (args : List Value) :
    act nested p scope output (.dispatch target level fields args) = (do
      let call ← sending target level fields args
      nested call
      return output) := by
  simp only [act, sending, bind_assoc, pure_bind]

/-- The fields of an entry that is sent become a mapping of their own. -/
theorem sending_yields (target : Destination) (level : Value) (fields : Supplied) (args : List Value)
    (s : Store) :
    (sending target level fields args).Yields s s.Quiet fun call s' =>
      call.fields.IsOwned s.Lacks ∧ (Action.dispatch target level fields args).Sends s' call := by
  have hI : Store.Calm s.Lacks s.Quiet := Store.Quiet.calm fun _ => Store.Quiet.room
  refine (destination_keeps target s (.refl s)).bind fun context s₁ hs₁ _ => ?_
  refine (sentFields_yields hI hs₁ fields).bind fun h s₂ hs₂ hh => ?_
  exact ⟨hs₂, hh.2, rfl, rfl, rfl, hh.1⟩

theorem sent_trails {call : Call} (hs : s.SentFrom call s₁) {x : Session Fields} {output : Fields}
    (hx : x s = (do nested call; return output) s₁) : x.Trails nested s [(call, s₁)] := by
  cases hn : nested call s₁ with
  | ok _ s' =>
    refine ⟨none, ?_, nofun⟩
    rw [Session.run_seq_ok hn] at hx
    rw [Session.leaves_ok hx]
    exact .sent hs hn (.stay (.refl s'))
  | error f s' =>
    rw [Session.run_bind_error hn] at hx
    refine ⟨some f, ?_, fun f' hf' => ?_⟩
    · rw [Session.leaves_error hx]
      exact .failed hs hn
    · rw [Session.outcome_error hx]
      cases hf'
      rfl

theorem act_trails (p : ProducerRef) (scope : Scope) (output : Fields) {action : Action}
    (ha : action ∈ (s.producer p).program) :
    (act nested p scope output action).Trails nested s (sent action s) := by
  have hspares : s.SparesDefaults → action.sparesDefaults := fun hs => hs p action ha
  cases action with
  | dispatch target level fields args =>
    rw [act_dispatch]
    have hyields := sending_yields target level fields args s
    cases hsend : sending target level fields args s with
    | error f s₁ =>
      have hsent : sent (.dispatch target level fields args) s = [] := by simp only [sent, hsend]
      rw [hsent]
      exact (Session.Trails.of_quiet hyields.leaves).bind_error hsend
    | ok call s₁ =>
      have hsent : sent (.dispatch target level fields args) s = [(call, s₁)] := by
        simp only [sent, hsend]
      obtain ⟨hquiet, hfresh, hsends⟩ := hyields.ok hsend
      rw [hsent]
      exact sent_trails ⟨hquiet, hfresh, p, _, ha, hsends⟩ (Session.run_bind_ok hsend)
  | configure changes =>
    have hconfigure := configure_quiet (fun hs => Bool.false_ne_true (hspares hs)) changes
    exact (Session.Trails.of_quiet hconfigure).then_pure
  | reset environment =>
    have hreset := resetDefaults_quiet (fun hs => Bool.false_ne_true (hspares hs)) environment
    exact (Session.Trails.of_quiet hreset).then_pure
  | _ =>
    refine .of_quiet ?_
    exact (act_inner_keeps (Store.Quiet.calm_all s).toEditing (fun _ _ => trivial) p output rfl).leaves (.refl s)

theorem run_trails (hn : NestedPrograms nested) (p : ProducerRef) (scope : Scope) (output : Fields)
    {program : List Action} (hp : ∀ action ∈ program, action ∈ (s.producer p).program) :
    (run nested p scope output program).Trails nested s (sends nested p scope output program s) := by
  induction program generalizing output s with
  | nil =>
    have hnew : s.Quiet ((Session.newMapping output).leaves s) :=
      (Session.newMapping_keeps (Store.Quiet.calm_all s) output).leaves (.refl s)
    exact (Session.Trails.of_quiet hnew).then_pure
  | cons action rest ih =>
    obtain ⟨haction, hrest⟩ := List.forall_mem_cons.1 hp
    have hact : (act nested p scope output action).Trails nested s (sent action s) :=
      act_trails p scope output haction
    -- Two actions end the run; any other one is followed by the rest.
    have hgoes : ((act nested p scope output action >>= fun output => run nested p scope output rest) :
        Session Handle).Trails nested s (sent action s ++
          match act nested p scope output action s with
          | .ok output s' => sends nested p scope output rest s'
          | .error _ _ => []) := by
      cases hx : act nested p scope output action s with
      | error f s₁ =>
        dsimp only
        rw [List.append_nil]
        exact hact.bind_error hx
      | ok out s₁ =>
        have hprograms := hact.programs hn p
        rw [Session.leaves_ok hx] at hprograms
        exact hact.bind_ok hx (ih out fun action hmem => hprograms ▸ hrest action hmem)
    cases action with
    | giveNothing => exact .of_quiet (.refl s)
    | giveFields => exact .of_quiet (.refl s)
    | _ => exact hgoes

end Produce

/-! ## Sources and the fields of an entry -/

namespace Store

/-- The store once a call of a producer has been counted. -/
def counted (s : Store) (p : ProducerRef) : Store :=
  { s with
    producers := s.producers.set p.index { s.producer p with calls := (s.producer p).calls + 1 } }

/-- Can a producer be called with so many arguments? -/
def takes (s : Store) (p : ProducerRef) (count : Nat) : Bool :=
  match (s.producer p).parameters with
  | some parameters => parameters.accepts count
  | none => true

end Store

/-- The entries that are sent when what a source holds is called. -/
def Produce.invoked (nested : Call → Session Unit) (of : Source) (count : Nat) (scope : Scope)
    (s : Store) : List (Call × Store) :=
  match of with
  | .producer p =>
    if s.takes p count then sends nested p scope .empty (s.producer p).program (s.counted p) else []
  | _ => []

/-- The entries that a source sends while it makes its fields. -/
def Source.sends (nested : Call → Session Unit) (scope : Scope) (s : Store) :
    Source → List (Call × Store)
  | .lazy of => Produce.invoked nested of 0 {} s
  | .contextual of => Produce.invoked nested of 4 scope s
  | _ => []

theorem Produce.call_trails (hn : NestedPrograms nested) (p : ProducerRef) (scope : Scope) :
    (call nested p scope).Trails nested s
      (sends nested p scope .empty (s.producer p).program (s.counted p)) := by
  have hrun : call nested p scope s = run nested p scope .empty (s.producer p).program (s.counted p) := rfl
  have hcount : s.Quiet (s.counted p) := .of_parts (Nat.le_refl _) (Store.program_called s p)
  exact .after_quiet hrun hcount (run_trails hn p scope .empty fun action ha => hcount.programs p ▸ ha)

theorem Produce.invoke_run (p : ProducerRef) (count : Nat) (scope : Scope) (s : Store) :
    invoke nested (.producer p) count scope s = (match (s.producer p).parameters with
      | some parameters =>
        if parameters.accepts count then call nested p scope
        else throw (Failure.call (callFault (s.producer p) parameters count))
      | none => call nested p scope) s := rfl

/-- Without an argument too many or too few a producer is called; else nothing happens. -/
theorem Produce.invoke_trails (hn : NestedPrograms nested) (of : Source) (count : Nat) (scope : Scope) :
    (invoke nested of count scope).Trails nested s (invoked nested of count scope s) := by
  cases of with
  | producer p =>
    have hcall := call_trails hn p scope (s := s)
    show (invoke nested (.producer p) count scope).Trails nested s (if s.takes p count then
      sends nested p scope .empty (s.producer p).program (s.counted p) else [])
    refine .after_quiet (invoke_run p count scope s) (.refl s) ?_
    cases hsig : (s.producer p).parameters with
    | none =>
      have htakes : s.takes p count = true := by rw [Store.takes, hsig]
      rw [if_pos htakes]
      exact hcall
    | some signature =>
      have htakes : s.takes p count = signature.accepts count := by rw [Store.takes, hsig]
      rw [htakes]
      dsimp only
      split
      · exact hcall
      · exact .of_quiet (Store.Quiet.refl s)
  | _ => exact .of_quiet (Store.Quiet.refl s)

theorem resolveSource_trails (hn : NestedPrograms nested) (source : Source) (scope : Scope) :
    (resolveSource nested source scope).Trails nested s (source.sends nested scope s) := by
  cases source with
  | lazy of => exact Produce.invoke_trails hn of 0 {}
  | contextual of => exact Produce.invoke_trails hn of 4 scope
  | _ => exact .of_quiet (.refl s)

/-- What follows the source sends no more entries. -/
theorem resolveFields_trails (hn : NestedPrograms nested) (source : Source) (scope : Scope) :
    (resolveFields nested source scope).Trails nested s (source.sends nested scope s) := by
  have hsource := resolveSource_trails hn source scope (s := s)
  unfold resolveFields
  cases ha : source.isAbsent with
  | true =>
    cases source with
    | value v => exact .of_quiet (.refl s)
    | _ => cases ha
  | false =>
    rw [if_neg Bool.false_ne_true]
    cases hx : resolveSource nested source scope s with
    | error f s₁ => exact hsource.bind_error hx
    | ok produced s₁ =>
      have hmerge : (mergeHandles scope.fields produced).Trails nested s₁ [] :=
        .of_quiet ((mergeHandles_keeps (Store.Quiet.calm_all s₁) scope.fields produced).leaves (.refl s₁))
      rw [← List.append_nil (source.sends nested scope s)]
      exact hsource.bind_ok hx hmerge.then_pure

namespace Dispatch

/-- The entries that are sent while the fields of an entry are made. -/
def sends (nested : Call → Session Unit) (c : ContextRef) (level : Level) (call : Call) (s : Store) :
    List (Call × Store) :=
  match explicitFields (s.sourceOf c) call.fields s with
  | .ok explicit s₁ => (s.sourceOf c).sends nested
      { context := some c, level := .level level, fields := explicit, args := call.args } s₁
  | .error _ _ => []

theorem explicitFields_quiet (source : Source) (fields : Handle) (s : Store) :
    s.Quiet ((explicitFields source fields).leaves s) :=
  (explicitFields_yields (Store.Quiet.calm_all s) (.refl s) source fields).leaves

theorem entryFields_trails (hn : NestedPrograms nested) (c : ContextRef) (level : Level) (call : Call) :
    (entryFields nested c level call).Trails nested s (sends nested c level call s) := by
  have hquiet := explicitFields_quiet (s.sourceOf c) call.fields s
  refine .after_quiet (Session.run_bind_ok Session.run_get) (.refl s) ?_
  unfold sends
  cases hx : explicitFields (s.sourceOf c) call.fields s with
  | error f s₁ => exact (Session.Trails.of_quiet hquiet).bind_error hx
  | ok explicit s₁ =>
    rw [Session.leaves_ok hx] at hquiet
    exact .after_quiet (Session.run_bind_ok hx) hquiet (resolveFields_trails hn _ _)

end Dispatch

/-! ## What makes mappings and does nothing else -/

/-- A predicate that is kept when a mapping is made. -/
def Store.Roomy (I : Store → Prop) : Prop := ∀ s f, I s → I { s with mappings := s.mappings ++ [f] }

section roomy

variable {I : Store → Prop}

theorem Session.newMapping_roomy (hI : Store.Roomy I) (f : Fields) : (newMapping f).Keeps I :=
  fun s hs => ⟨hI s f hs, trivial⟩

theorem Session.newCopy_roomy (hI : Store.Roomy I) (h : Handle) : (newCopy h).Keeps I :=
  .get fun s hs => Keeps.bind (.lift _) (newMapping_roomy hI) s hs

theorem Produce.sending_roomy (hI : Store.Roomy I) (target : Destination) (level : Value) (fields : Supplied)
    (args : List Value) : (sending target level fields args).Keeps I := by
  have hsent : (sentFields fields).Keeps I := by
    cases fields with
    | fields f => exact .bind (Session.newMapping_roomy hI f) fun _ => .pure _
    | _ => exact .pure _
  exact .bind (destination_keeps target) fun _ => .bind hsent fun _ => .pure _

theorem mergeHandles_roomy (hI : Store.Roomy I) (explicit produced : Handle) :
    (mergeHandles explicit produced).Keeps I := by
  refine .get fun s hs => Session.Keeps.bind (.lift _) (fun ⟨side, fields⟩ => ?_) s hs
  cases side with
  | new =>
    cases fields with
    | fields f => exact .bind (Session.newMapping_roomy hI f) fun _ => .pure _
    | _ => exact .pure _
  | _ => exact .pure _

theorem mergedFields_roomy (hI : Store.Roomy I) (explicit produced : Handle) :
    (do let (_, fields) ← mergeHandles explicit produced; return fields : Session Handle).Keeps I :=
  .bind (mergeHandles_roomy hI explicit produced) fun _ => .pure _

theorem makeStatic_roomy (hI : Store.Roomy I) (object : Source) : (makeStatic object).Keeps I := by
  have hnew : ∀ f, (do return .static (← Session.newMapping f) : Session Source).Keeps I := fun f =>
    .bind (Session.newMapping_roomy hI f) fun _ => .pure _
  unfold makeStatic
  exact .get fun s hs => .lift_bind hs fun f _ => hnew f s hs

theorem asSource_roomy (hI : Store.Roomy I) (object : Source) : (asSource object).Keeps I := by
  unfold asSource
  cases object with
  | mapping m => exact makeStatic_roomy hI _
  | value v =>
    cases v with
    | dict entries => exact makeStatic_roomy hI _
    | _ => exact .throw _
  | producer p =>
    refine .get fun s hs => ?_
    by_cases hmapping : (s.producer p).asMapping.isSome
    · rw [if_pos hmapping]
      exact makeStatic_roomy hI _ s hs
    · rw [if_neg hmapping]
      cases (s.producer p).signature with
      | none => exact hs
      | some signature =>
        dsimp only
        split
        · exact ⟨hs, trivial⟩
        · split
          · exact ⟨hs, trivial⟩
          · exact hs
  | _ => exact .pure _

theorem Dispatch.explicitFields_roomy (hI : Store.Roomy I) (source : Source) (fields : Handle) :
    (explicitFields source fields).Keeps I := by
  unfold explicitFields
  cases source.isContextual with
  | true => exact .bind (Session.newCopy_roomy hI fields) fun _ => .pure _
  | false =>
    refine .get fun s hs => ?_
    cases s.isPresent fields with
    | true => exact ⟨hs, trivial⟩
    | false => exact ⟨hs, trivial⟩

end roomy

end ContextLog
