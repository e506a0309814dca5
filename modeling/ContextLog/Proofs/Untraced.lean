import ContextLog.Proofs.Parallel
/-!
# Runs with and without tracing

Two stores are alike if they are the same but for the records of entries in the journal and for whether
entries are traced (`Store.Alike`). From such stores a dispatch ends in the same way, and in stores that are
alike again, as long as entries have nothing or a mapping as their fields (`dispatchWithin_alike`): the record of
an entry is a report and nothing else, and a mapping can always be recorded.
-/

namespace ContextLog

/-! ## Stores that are alike -/

/-- Is a report the record of an entry? -/
def Report.isAppend (r : Report) : Bool := r.message = "append"

/-- What an action sends, if it sends anything, has nothing or a mapping as its fields. -/
def Action.SendsRegular : Action → Prop
  | .dispatch _ _ fields _ => fields.IsRegular
  | _ => True

/-- The defaults with tracing off. -/
def Defaults.untraced (d : Defaults) : Defaults := { d with debug := .bool false }

namespace Store

/-- The entries that producers send have nothing or a mapping as their fields. -/
def SendsRegular (s : Store) : Prop := ∀ p, ∀ action ∈ (s.producer p).program, action.SendsRegular

/-- The store without the records of entries, and with tracing off. -/
def untraced (s : Store) : Store :=
  { s with journal := s.journal.filter (!·.isAppend), defaults := s.defaults.untraced }

/-- Two stores that differ only in the records of entries and in whether entries are traced. -/
structure Alike (s s' : Store) : Prop where
  untraced : s'.untraced = s.untraced
  regular : s.SendsRegular

variable {s s' : Store}

/-- What can be read off a store without its records is the same in stores that are alike. -/
theorem Alike.read {γ : Type} {g : Store → γ} (h : s.Alike s') (hg : ∀ s, g s.untraced = g s) :
    g s' = g s := by rw [← hg s', h.untraced, hg s]

/-- A change that touches neither the journal nor the defaults keeps stores alike. -/
theorem Alike.change {g : Store → Store} (h : s.Alike s') (hg : ∀ s, (g s).untraced = g s.untraced)
    (hr : (g s).SendsRegular) : (g s).Alike (g s') :=
  ⟨by rw [hg, hg, h.untraced], hr⟩

theorem Alike.reported {rs rs' : List Report} (h : s.Alike s')
    (hrs : rs'.filter (!·.isAppend) = rs.filter (!·.isAppend)) :
    Alike { s with journal := s.journal ++ rs } { s' with journal := s'.journal ++ rs' } where
  untraced := by
    have hjournal : s'.journal.filter (!·.isAppend) = s.journal.filter (!·.isAppend) :=
      congrArg Store.journal h.untraced
    have hstore := congrArg (fun t : Store => { t with
      journal := (s.journal ++ rs).filter (!·.isAppend) }) h.untraced
    simpa only [Store.untraced, List.filter_append, hjournal, hrs] using hstore
  regular := h.regular

end Store

open Session

/-! ## Changes of the defaults -/

theorem Change.apply_untraced {d d' : Defaults} (h : d'.untraced = d.untraced) (c : Change) :
    (apply d' c).map Defaults.untraced = (apply d c).map Defaults.untraced := by
  obtain ⟨l, a, context, debug⟩ := d
  obtain ⟨l', a', context', debug'⟩ := d'
  obtain ⟨rfl, rfl, rfl, -⟩ := Defaults.mk.inj h
  cases c with
  | level v =>
    simp only [apply]
    cases Level.ofValue v <;> rfl
  | _ => rfl

theorem Change.applyAll_untraced {d d' : Defaults} (h : d'.untraced = d.untraced) (changes : List Change) :
    (applyAll d' changes).map Defaults.untraced = (applyAll d changes).map Defaults.untraced := by
  have hfold : ∀ cs : List Change,
      (cs.foldlM apply d').map Defaults.untraced = (cs.foldlM apply d).map Defaults.untraced := by
    intro cs
    induction cs generalizing d d' with
    | nil => exact congrArg Except.ok h
    | cons c cs ih =>
      have hc := apply_untraced h c
      rw [List.foldlM_cons, List.foldlM_cons]
      cases hd : apply d c with
      | error f =>
        cases hd' : apply d' c with
        | error f' => rw [hd, hd'] at hc; cases hc; rfl
        | ok e' => rw [hd, hd'] at hc; cases hc
      | ok e =>
        cases hd' : apply d' c with
        | error f' => rw [hd, hd'] at hc; cases hc
        | ok e' =>
          rw [hd, hd'] at hc
          exact ih (Except.ok.inj hc)
  simp only [applyAll]
  cases (distinct changes).mapM checkLevel with
  | error f => rfl
  | ok _ => exact hfold _

theorem Store.Alike.defaults {s s' : Store} (h : s.Alike s') {d d' : Defaults} (hd : d'.untraced = d.untraced) :
    Alike { s with defaults := d } { s' with defaults := d' } where
  untraced := by
    have hstore := congrArg (fun t : Store => { t with defaults := d.untraced }) h.untraced
    show { s'.untraced with defaults := d'.untraced } = { s.untraced with defaults := d.untraced }
    rw [hd]
    exact hstore
  regular := h.regular

namespace Store

theorem changeText_untraced (s : Store) (c : Change) : s.untraced.changeText c = s.changeText c :=
  changeText_congr rfl rfl rfl fun _ _ => rfl

end Store

theorem configure_alike {s s' : Store} (h : s.Alike s') (changes : List Change) :
    Ends Store.Alike Eq (configure changes s) (configure changes s') := by
  have hchanges := Change.applyAll_untraced (congrArg Store.defaults h.untraced) (Change.distinct changes)
  have hreport : ∀ cs : List Change, Abreast Store.Alike Eq (do
      let s ← get
      let shown ← Session.lift (cs.mapM fun c => do return (c.name, ← s.changeText c))
      Session.report [.configured shown] : Session Unit) (do
      let s ← get
      let shown ← Session.lift (cs.mapM fun c => do return (c.name, ← s.changeText c))
      Session.report [.configured shown]) := fun cs => .get fun s s' h => by
    have htext : s'.changeText = s.changeText := h.read fun s => funext s.changeText_untraced
    rw [htext]
    exact Abreast.lift_bind _ (fun shown _ _ h => .ok rfl (h.reported rfl)) h
  -- The new defaults differ in whether entries are traced, if at all, and this is not reported.
  show Ends Store.Alike Eq ((Session.lift (Change.applyAll s.defaults (Change.distinct changes)) >>= _) s)
    ((Session.lift (Change.applyAll s'.defaults (Change.distinct changes)) >>= _) s')
  generalize Change.applyAll s.defaults (Change.distinct changes) = r at hchanges ⊢
  generalize Change.applyAll s'.defaults (Change.distinct changes) = r' at hchanges ⊢
  cases r with
  | error f =>
    cases r' with
    | error f' => cases hchanges; exact .error f h
    | ok d' => cases hchanges
  | ok d =>
    cases r' with
    | error f' => cases hchanges
    | ok d' => exact hreport _ (h.defaults (Except.ok.inj hchanges))

/-! ## Producers -/

/-- A handle stands for nothing or a mapping, whatever the store holds. -/
def Handle.IsRegular (h : Handle) : Prop := ∀ s : Store, (s.supplied h).IsRegular

theorem Handle.isRegular_of_supplied {s : Store} {h : Handle} (hr : (s.supplied h).IsRegular) : h.IsRegular := by
  cases h with
  | other v => exact fun _ => hr
  | _ => exact fun _ => trivial

/-- An entry that a regular action sends has nothing or a mapping as its fields. -/
theorem Action.Sends.isRegular {s : Store} {call : Call} {action : Action} (h : action.Sends s call)
    (hr : action.SendsRegular) : call.fields.IsRegular := by
  cases action with
  | dispatch target level fields args =>
    obtain ⟨-, -, -, hholds⟩ := h
    refine Handle.isRegular_of_supplied (s := s) ?_
    cases fields with
    | nothing => rw [show call.fields = .nothing from hholds]; trivial
    | fields f =>
      obtain ⟨m, hm, -⟩ := hholds
      rw [hm]
      trivial
    | other v => exact hr.elim
  | _ => exact h.elim

theorem Store.SendsRegular.of_programs {s s' : Store} (h : s.SendsRegular)
    (hp : ∀ p, (s'.producer p).program = (s.producer p).program) : s'.SendsRegular := fun p action ha =>
  h p action (hp p ▸ ha)

/-- The entries that are sent while another one is dispatched have nothing or a mapping as their fields. -/
theorem Call.sends_regular {caught : Tolerance} {depth : Nat} {s : Store} {call : Call} (hs : s.SendsRegular)
    {sent : Call × Store} (hsent : sent ∈ call.sends (sentWithin caught depth) s) :
    sent.1.fields.IsRegular := by
  obtain ⟨s₁, s₂, hbefore, hreach, hfrom, -⟩ := sends_reach
    (R := fun s s' => ∀ p, (s'.producer p).program = (s.producer p).program)
    (fun _ _ hquiet => hquiet.programs) (fun _ _ _ h h' p => (h' p).trans (h p)) (sentWithin_programs caught depth)
    (fun sent => sentWithin_programs caught depth sent.1 sent.2) hsent
  obtain ⟨p, action, haction, hsends⟩ := hfrom.sender
  rw [hreach p, hbefore.programs p] at haction
  exact hsends.isRegular (hs p action haction)

namespace Store.Alike

theorem parallel : Store.Parallel Eq Store.Alike where
  mapping h hm := hm ▸ h.read (g := (·.mapping _)) fun _ => rfl
  fresh h := congrArg MappingRef.mk (h.read (g := (·.mappings.length)) fun _ => rfl).symm
  allotted f h := h.change (g := fun s => { s with mappings := s.mappings ++ [f] }) (fun _ => rfl) h.regular
  edited {_ _ m _} f h hm := by
    subst hm
    exact h.change (g := fun s => { s with mappings := s.mappings.set m.index f }) (fun _ => rfl) h.regular
  producer p h := h.read (g := (·.producer p)) fun _ => rfl
  called {s s'} p h := h.change (g := (·.counted p)) (fun _ => rfl) (h.regular.of_programs (program_called s p))
  names h := h.read (g := (·.names)) fun _ => rfl
  value c key default h := h.read (g := fun s => (s.context c).value key default) fun _ => rfl
  source c h := (h.read (g := (·.sourceOf c)) fun _ => rfl) ▸ Source.tied_eq _
  admission context level h := h.read (g := (·.admission context level)) fun _ => rfl
  configured _ changes _ _ _ _ h := configure_alike h changes
  reset _ h := .ok rfl ((h.defaults rfl).reported rfl)

theorem attended : Store.Attended Store.Alike where
  reported _ h := h.reported rfl
  delivered d h := h.change (g := fun s => { s with deliveries := s.deliveries ++ [d] }) (fun _ => rfl) h.regular
  worker h := h.read (g := (·.onWorker)) fun _ => rfl
  stdout h := h.read (g := fun s => s.stdout.map (·.flushFailure)) fun _ => rfl
  stderr h := h.read (g := fun s => s.stderr.map (·.flushFailure)) fun _ => rfl

theorem shared (a : AppenderRef) : Store.Shared a Store.Alike where
  appender h := h.read (g := (·.appender a)) fun _ => rfl
  received b h :=
    h.change (g := fun s => { s with appenders := s.appenders.set a.index b }) (fun _ => rfl) h.regular
  printed {s s' channel channel'} line h ho ho' := by
    have hchannel := h.read (g := (·.stdout)) fun _ => rfl
    obtain rfl : channel' = channel := by simpa [ho, ho'] using hchannel
    exact h.change (g := fun s => { s with stdout := some { channel' with text := channel'.text ++ line } })
      (fun _ => rfl) h.regular

end Store.Alike

/-! ## Dispatching -/

theorem Store.filter_not_records {s : Store} {debug : Value} {d : Delivery} {records : List Report}
    (h : s.recordOf debug d = .ok records) : records.filter (!·.isAppend) = [] := by
  have hrecords := recordOf_ok h
  split at hrecords
  · obtain ⟨event, -, rfl⟩ := hrecords
    rfl
  · rw [hrecords]
    rfl

/-- The reports on an entry may differ in its record. -/
theorem Store.Alike.noted {s s' : Store} (h : s.Alike s') {rs rs' : List Report}
    (hrs : rs'.filter (!·.isAppend) = rs.filter (!·.isAppend)) (d : Delivery) :
    (s.noted rs d).Alike (s'.noted rs' d) :=
  (h.reported hrs).change (g := fun s => { s with deliveries := s.deliveries ++ [d] }) (fun _ => rfl) h.regular

variable {nested nested' : Call → Session Unit}

theorem Dispatch.deliver_alike {s s' : Store} (h : s.Alike s') (c : ContextRef) (l : Level) (a : AppenderRef)
    {call : Call} (hr : call.fields.IsRegular)
    (hn : Store.NestedEnds Eq Store.Alike nested nested' (sends nested c l call s)) :
    Ends Store.Alike Eq (deliver nested c l a call s) (deliver nested' c l a call s') := by
  have htied : call.Tied (s.GivesSame Eq s') call := ⟨rfl, rfl, .inl (.refl fun _ _ => rfl), rfl, rfl⟩
  have hfields := entryFields_ends Store.Alike.parallel h c l htied hn
  generalize hx : entryFields nested c l call s = r at hfields
  generalize hx' : entryFields nested' c l call s' = r' at hfields
  cases hfields with
  | error f h₁ =>
    rw [deliver_of_fields_error hx, deliver_of_fields_error hx']
    exact .error f h₁
  | @ok handle handle' s₁ s₁' hh h₁ =>
    cases hm : (formatMessage call.args call.templated).2 with
    | error f =>
      rw [deliver_of_mismatch hx hm, deliver_of_mismatch hx' hm]
      exact .error f (h₁.reported rfl)
    | ok msg =>
      have hsupplied := Store.Alike.parallel.supplied h₁ hh
      have hmapping := entryFields_isMapping (hr s) hx
      have hmapping' := entryFields_isMapping (hr s') hx'
      obtain ⟨rs, hrs⟩ := recordOf_of_isMapping (s := s₁) hmapping s.defaults.debug a (some c) l (.text msg)
      obtain ⟨rs', hrs'⟩ := recordOf_of_isMapping (s := s₁') hmapping' s'.defaults.debug a (some c) l (.text msg)
      have hrun := deliver_run (a := a) rfl hx hm
      have hrun' := deliver_run (a := a) rfl hx' hm
      rw [hrs] at hrun
      rw [hrs'] at hrun'
      have hreports : (call.mismatches ++ rs').filter (!·.isAppend) =
          (call.mismatches ++ rs).filter (!·.isAppend) := by
        rw [List.filter_append, List.filter_append, Store.filter_not_records hrs, Store.filter_not_records hrs']
      rw [hrun, hrun', hsupplied]
      exact Abreast.bind
        (receive_abreast Store.Alike.parallel.toMirrored Store.Alike.attended (Store.Alike.shared a) hh _ _ _)
        (fun _ _ _ => followUp_abreast Store.Alike.attended l msg) (h₁.noted hreports _)

/-- An entry with nothing or a mapping as its fields is dispatched in the same way whether entries are
traced or not. -/
theorem dispatchWithin_alike (caught : Tolerance) (depth : Nat) {s s' : Store} (h : s.Alike s') {call : Call}
    (hr : call.fields.IsRegular) :
    Ends Store.Alike Eq (dispatchWithin caught depth call s) (dispatchWithin caught depth call s') := by
  induction depth generalizing call s s' with
  | zero => exact .error _ h
  | succ depth ih =>
    have hn : Store.NestedEnds Eq Store.Alike (sentWithin caught depth) (sentWithin caught depth)
        (call.sends (sentWithin caught depth) s) := by
      intro sent hsent call' s'' hcall h'
      obtain rfl : call' = sent.1 := hcall.eq
      exact (ih h' (Call.sends_regular h.regular hsent)).catching (caught sent.1)
    rw [dispatchWithin_succ, dispatchWith_run, dispatchWith_run,
      h.read (g := (·.admission call.context call.level)) fun _ => rfl]
    unfold Call.sends at hn
    cases hadm : s.admission call.context call.level with
    | refused f => exact .error f h
    | filtered => exact .ok rfl h
    | admitted c l a =>
      rw [hadm] at hn
      exact Dispatch.deliver_alike h c l a hr hn

end ContextLog
