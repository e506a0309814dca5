import Mathlib.Data.Set.List
import ContextLog.Proofs.Backends
import ContextLog.Proofs.Reentry
import ContextLog.Proofs.Tracing
/-!
# Appenders in each other's place

An appender is put in the place of another one, and both take every entry (`Sinks.Accepts`). Then a dispatch in
which all entries that it is handed are plain goes the same way with either of them: it has the same outcome, the
same is handed over, and the same is left but for what the two make of it (`appenders_interchangeable`). The
journal may tell them apart by the name of the type in the record of an entry, and by the representation of the
appender where a source makes it a default.
-/

namespace ContextLog

open Session

/-! ## Failing alike -/

/-- Two computations give related results, or fail in the same way. -/
inductive Likewise {α α' : Type} (A : α → α' → Prop) : Except Failure α → Except Failure α' → Prop
  | ok {a a'} : A a a' → Likewise A (.ok a) (.ok a')
  | error (f : Failure) : Likewise A (.error f) (.error f)

namespace Likewise

variable {α α' β β' γ : Type} {A : α → α' → Prop} {B : β → β' → Prop}

theorem of_eq {A : α → α → Prop} {x x' : Except Failure α} (h : x' = x) (hA : ∀ a, A a a) : Likewise A x x' := by
  subst h
  cases x' with
  | ok a => exact .ok (hA a)
  | error f => exact .error f

theorem bind {x : Except Failure α} {x' : Except Failure α'} {f : α → Except Failure β} {f' : α' → Except Failure β'}
    (hx : Likewise A x x') (hf : ∀ a a', A a a' → Likewise B (f a) (f' a')) : Likewise B (x >>= f) (x' >>= f') := by
  cases hx with
  | ok ha => exact hf _ _ ha
  | error f => exact .error f

/-- The same computation first. -/
theorem first {f f' : α → Except Failure β} {B : β → β → Prop} (x : Except Failure α)
    (hf : ∀ a, Likewise B (f a) (f' a)) : Likewise B (x >>= f) (x >>= f') :=
  (of_eq rfl fun _ => rfl : Likewise Eq x x).bind fun a _ ha => ha ▸ hf a

theorem mapM {f : γ → Except Failure α} {f' : γ → Except Failure α'} {xs : List γ}
    (h : ∀ x ∈ xs, Likewise A (f x) (f' x)) : Likewise (List.Forall₂ A) (xs.mapM f) (xs.mapM f') := by
  induction xs with
  | nil => exact .ok .nil
  | cons x xs ih =>
    obtain ⟨hx, hxs⟩ := List.forall_mem_cons.1 h
    rw [List.mapM_cons, List.mapM_cons]
    exact hx.bind fun a a' ha => (ih hxs).bind fun as as' has => .ok (.cons ha has)

theorem abreast {R : Store → Store → Prop} {x : Except Failure α} {x' : Except Failure α'} (h : Likewise A x x') :
    Abreast R A (lift x) (lift x') := by
  cases h with
  | ok ha => exact .pure ha
  | error f => exact .throw f

end Likewise

/-! ## What tells two appenders apart -/

/-- A change of the defaults shows an appender, by itself or with a context that has it. -/
def Change.Names (contexts : List Context) (r : AppenderRef) : Change → Prop
  | .appender a => a = some r
  | .context (some c) => (contexts[c.index]?.getD {}).appender = some r
  | _ => False

/-- An appender in the place of which another one is put. -/
structure Exchange where
  appender : AppenderRef
  /-- The names of the types of the two. -/
  name : String
  name' : String
  contexts : List Context
  /-- Some source shows the appender among the defaults that it sets. -/
  named : Prop

/-- The exchange of an appender of a store for another one. -/
def Store.exchange (s : Store) (r : AppenderRef) (a' : Appender) : Exchange where
  appender := r
  name := (s.appender r).typeName
  name' := a'.typeName
  contexts := s.contexts
  named := ∃ p changes, .configure changes ∈ (s.producer p).program ∧ ∃ c ∈ changes, c.Names s.contexts r

/-- Two reports are the same but for what tells the two appenders apart: the name of the type in the record of an
entry, and the texts of settings that show the appender, if some source sets them. -/
inductive Report.Alike (x : Exchange) : Report → Report → Prop
  | same (r : Report) : Alike x r r
  | append (level fields msg : Value) :
    Alike x
      (.append (.named [("appender", .str x.name), ("level", level), ("fields", fields), ("msg", msg)]))
      (.append (.named [("appender", .str x.name'), ("level", level), ("fields", fields), ("msg", msg)]))
  | configured {settings settings' : List (String × String)} (h : x.named)
    (hs : List.Forall₂ (fun y y' => y' = y ∨ y'.1 = y.1 ∧ (y.1 = "appender" ∨ y.1 = "context")) settings settings') :
    Alike x (.configured settings) (.configured settings')

namespace Store

/-- The store without an appender, the text of the standard output and the journal. -/
def without (s : Store) (r : AppenderRef) : Store := { s with
  appenders := s.appenders.set r.index (.plain .none)
  stdout := s.stdout.map fun channel => { channel with text := "" }
  journal := [] }

/-- Two stores are the same but for an appender that takes every entry, and for what has come of that. -/
structure Exchanged (x : Exchange) (s s' : Store) : Prop where
  rest : s'.without x.appender = s.without x.appender
  journal : List.Forall₂ (Report.Alike x) s.journal s'.journal
  accepts : s.sinks.Accepts x.appender ∧ s'.sinks.Accepts x.appender
  types : (s.appender x.appender).typeName = x.name ∧ (s'.appender x.appender).typeName = x.name'
  contexts : s.contexts = x.contexts
  named : ∀ p changes, .configure changes ∈ (s.producer p).program →
    ∀ c ∈ changes, c.Names x.contexts x.appender → x.named

end Store

variable {x : Exchange} {s s' : Store} {r q : AppenderRef} {l : Level} {f : Fields} {m : Text}

namespace Store

theorem without_appender (s : Store) (hq : q ≠ r) : (s.without r).appender q = s.appender q :=
  appender_received_of_ne hq _

namespace Exchanged

/-- What can be read off a store without the appender is the same. -/
theorem read {γ : Type} {g : Store → γ} (h : s.Exchanged x s') (hg : ∀ s, g (s.without x.appender) = g s) :
    g s' = g s := by rw [← hg s', h.rest, hg s]

/-- A change of anything else keeps stores the same in this sense. -/
theorem change {g : Store → Store} (h : s.Exchanged x s')
    (hg : ∀ s, (g s).without x.appender = g (s.without x.appender))
    (hj : ∀ s, (g s).journal = s.journal) (hk : ∀ s, (g s).sinks = s.sinks) (hc : ∀ s, (g s).contexts = s.contexts)
    (hp : ∀ s p, ((g s).producer p).program = (s.producer p).program) : (g s).Exchanged x (g s') where
  rest := by rw [hg, hg, h.rest]
  journal := by rw [hj, hj]; exact h.journal
  accepts := by rw [hk, hk]; exact h.accepts
  types := by
    have happ : ∀ s, (g s).appender x.appender = s.appender x.appender := fun s =>
      congrArg (Sinks.appender · x.appender) (hk s)
    rw [happ, happ]
    exact h.types
  contexts := by rw [hc]; exact h.contexts
  named p changes hmem := h.named p changes (hp s p ▸ hmem)

theorem reported (h : s.Exchanged x s') {rs rs' : List Report} (hrs : List.Forall₂ (Report.Alike x) rs rs') :
    Exchanged x { s with journal := s.journal ++ rs } { s' with journal := s'.journal ++ rs' } where
  rest := h.rest
  journal := List.rel_append h.journal hrs
  accepts := h.accepts
  types := h.types
  contexts := h.contexts
  named := h.named

theorem reported_same (h : s.Exchanged x s') (rs : List Report) :
    Exchanged x { s with journal := s.journal ++ rs } { s' with journal := s'.journal ++ rs } :=
  h.reported (List.forall₂_same.2 fun r _ => .same r)

/-! ### The texts of settings -/

theorem sourceText (h : s.Exchanged x s') (source : Source) : s'.sourceText source = s.sourceText source :=
  sourceText_congr (h.read (g := (·.mapping)) fun _ => rfl) (h.read (g := (·.producer)) fun _ => rfl) source

theorem appenderText (h : s.Exchanged x s') (a : Option AppenderRef) :
    Likewise (fun t t' => t' = t ∨ a = some x.appender) (s.appenderText a) (s'.appenderText a) := by
  have hrepr : ∀ s : Store, s.sinks.Accepts x.appender →
      ∃ t, (s.appender x.appender).repr x.appender = .ok t := by
    intro s ha
    unfold Sinks.Accepts at ha
    rw [show s.sinks.appender x.appender = s.appender x.appender from rfl] at ha
    cases hr : s.appender x.appender with
    | plain v => rw [hr] at ha; exact ha.elim
    | _ => exact ⟨_, rfl⟩
  cases a with
  | none => exact .ok (.inl rfl)
  | some a =>
    show Likewise _ ((s.appender a).repr a) ((s'.appender a).repr a)
    by_cases ha : a = x.appender
    · subst ha
      obtain ⟨t, ht⟩ := hrepr s h.accepts.1
      obtain ⟨t', ht'⟩ := hrepr s' h.accepts.2
      rw [ht, ht']
      exact .ok (.inr rfl)
    · have hsame := h.read (g := (·.appender a)) fun s => s.without_appender ha
      exact .of_eq (by rw [hsame]) fun _ => .inl rfl

theorem contextText (h : s.Exchanged x s') (c : ContextRef) :
    Likewise (fun t t' => t' = t ∨ (Change.context (some c)).Names x.contexts x.appender)
      (s.contextText (some c)) (s'.contextText (some c)) := by
  have hcontext := h.read (g := (·.context c)) fun _ => rfl
  have hnames : (s.context c).appender = some x.appender →
      (Change.context (some c)).Names x.contexts x.appender := fun ha => by
    rw [← h.contexts]
    exact ha
  unfold Store.contextText
  dsimp only
  rw [hcontext, h.sourceText]
  refine .first _ fun level => (h.appenderText _).bind fun t t' ht => .first _ fun source => .first _ fun values => ?_
  rcases ht with rfl | ha
  · exact .ok (.inl rfl)
  · exact .ok (.inr (hnames ha))

theorem changeText (h : s.Exchanged x s') (c : Change) :
    Likewise (fun t t' => t' = t ∨ c.Names x.contexts x.appender) (s.changeText c) (s'.changeText c) := by
  cases c with
  | appender a => exact h.appenderText a
  | context c =>
    cases c with
    | none => exact .ok (.inl rfl)
    | some c => exact h.contextText c
  | _ => exact .of_eq rfl fun _ => .inl rfl

/-- Settings are set in the same way, and reported in the same way unless they show the appender. -/
theorem configured {changes : List Change} (hnamed : ∀ c ∈ changes, c.Names x.contexts x.appender → x.named) :
    Abreast (Exchanged x) Eq (configure changes) (configure changes) := by
  intro s s' h
  have hdefaults := h.read (g := (·.defaults)) fun _ => rfl
  rw [configure_run, configure_run, hdefaults]
  cases Change.applyAll s.defaults changes with
  | error f => exact .error f h
  | ok d =>
    have hd : Exchanged x { s with defaults := d } { s' with defaults := d } :=
      h.change (g := fun s => { s with defaults := d }) (fun _ => rfl) (fun _ => rfl) (fun _ => rfl) (fun _ => rfl)
        fun _ _ => rfl
    have hshown : ∀ c ∈ Change.distinct changes, Likewise
        (fun y y' => y' = y ∨ x.named ∧ y'.1 = y.1 ∧ (y.1 = "appender" ∨ y.1 = "context"))
        (do return (c.name, ← s.changeText c)) (do return (c.name, ← s'.changeText c)) := by
      intro c hc
      refine (h.changeText c).bind fun t t' ht => .ok ?_
      rcases ht with rfl | hn
      · exact .inl rfl
      · refine .inr ⟨hnamed c (Change.mem_of_mem_distinct hc) hn, rfl, ?_⟩
        cases c with
        | appender a => exact .inl rfl
        | context c => exact .inr rfl
        | _ => exact hn.elim
    dsimp only
    refine Abreast.bind (Likewise.mapM hshown).abreast (fun shown shown' hs => ?_) hd
    refine fun s s' h => .ok rfl (h.reported (.cons ?_ .nil))
    by_cases hn : x.named
    · exact .configured hn (hs.imp fun y y' hy => hy.imp_right (·.2))
    · have heq : shown' = shown := by
        have hsame := hs.imp fun y y' hy => hy.resolve_right fun hy => hn hy.1
        exact (List.forall₂_eq_eq_eq ▸ hsame.flip : shown' = shown)
      rw [heq]
      exact .same _

theorem parallel (x : Exchange) : Store.Parallel Eq (Exchanged x) where
  mapping h hm := hm ▸ h.read (g := (·.mapping _)) fun _ => rfl
  edited {_ _ m _} f h hm := by
    subst hm
    exact h.change (g := fun s => { s with mappings := s.mappings.set m.index f }) (fun _ => rfl) (fun _ => rfl)
      (fun _ => rfl) (fun _ => rfl) fun _ _ => rfl
  fresh h := congrArg MappingRef.mk (h.read (g := (·.mappings.length)) fun _ => rfl).symm
  allotted f h := h.change (g := fun s => { s with mappings := s.mappings ++ [f] }) (fun _ => rfl) (fun _ => rfl)
    (fun _ => rfl) (fun _ => rfl) fun _ _ => rfl
  producer p h := h.read (g := (·.producer p)) fun _ => rfl
  called p h := h.change (g := (·.counted p)) (fun _ => rfl) (fun _ => rfl) (fun _ => rfl) (fun _ => rfl)
    fun s => program_called s p
  names h := h.read (g := (·.names)) fun _ => rfl
  value c key default h := h.read (g := fun s => (s.context c).value key default) fun _ => rfl
  source c h := (h.read (g := (·.sourceOf c)) fun _ => rfl) ▸ Source.tied_eq _
  admission context level h := h.read (g := (·.admission context level)) fun _ => rfl
  configured p changes h hmem := configured (h.named p changes hmem)
  reset environment h := by
    have hd := h.change (g := fun s => { s with defaults := (Defaults.ofEnvironment environment).1 }) (fun _ => rfl)
      (fun _ => rfl) (fun _ => rfl) (fun _ => rfl) fun _ _ => rfl
    exact .ok rfl (hd.reported_same (Defaults.ofEnvironment environment).2)

theorem attended (x : Exchange) : Store.Attended (Exchanged x) where
  reported rs h := h.reported_same rs
  delivered d h := h.change (g := fun s => { s with deliveries := s.deliveries ++ [d] }) (fun _ => rfl)
    (fun _ => rfl) (fun _ => rfl) (fun _ => rfl) fun _ _ => rfl
  worker h := h.read (g := (·.onWorker)) fun _ => rfl
  stdout h := h.read (g := fun s => s.stdout.map (·.flushFailure)) fun s => by
    simp only [without, Option.map_map]
    rfl
  stderr h := h.read (g := fun s => s.stderr.map (·.flushFailure)) fun _ => rfl

/-- Any other appender is the same on both sides. -/
theorem shared (hq : q ≠ x.appender) : Store.Shared q (Exchanged x) where
  appender h := h.read (g := (·.appender q)) fun s => s.without_appender hq
  received {s s'} b h := by
    have happ : ∀ s : Store, ({ s with appenders := s.appenders.set q.index b } : Store).appender x.appender =
        s.appender x.appender := fun s => appender_received_of_ne (Ne.symm hq) b
    have haccepts : ∀ s : Store, s.sinks.Accepts x.appender →
        ({ s with appenders := s.appenders.set q.index b } : Store).sinks.Accepts x.appender := fun s ha =>
      ha.of_appender (happ s) id
    refine ⟨?_, h.journal, ⟨haccepts s h.accepts.1, haccepts s' h.accepts.2⟩, ?_, h.contexts, h.named⟩
    · have hset : ∀ s : Store, ({ s with appenders := s.appenders.set q.index b } : Store).without x.appender =
          { s.without x.appender with appenders := (s.without x.appender).appenders.set q.index b } := fun s => by
        have hi : q.index ≠ x.appender.index := fun he => hq (by cases q; cases hx : x.appender; simp_all)
        simp only [without, List.set_comm _ _ hi]
      rw [hset, hset, h.rest]
    · rw [happ, happ]
      exact h.types
  printed {s s' channel channel'} line h ho ho' := by
    have hchannel := h.read (g := fun s => s.stdout.map (·.flushFailure)) fun s => by
      simp only [without, Option.map_map]
      rfl
    have hfailure : channel'.flushFailure = channel.flushFailure := by simpa [ho, ho'] using hchannel
    have haccepts : ∀ (s : Store) channel, s.sinks.Accepts x.appender →
        ({ s with stdout := some channel } : Store).sinks.Accepts x.appender := fun s channel ha =>
      ha.of_appender rfl fun _ => rfl
    refine ⟨?_, h.journal, ⟨haccepts s _ h.accepts.1, haccepts s' _ h.accepts.2⟩, h.types, h.contexts, h.named⟩
    have hprinted : ∀ (s : Store) (channel : Channel), ({ s with stdout := some channel } : Store).without x.appender =
        { s.without x.appender with stdout := some ⟨"", channel.flushFailure⟩ } := fun s channel => rfl
    rw [hprinted, hprinted, h.rest, hfailure]

end Exchanged

theorem without_hand (s : Store) (r : AppenderRef) (e : PlainEntry) :
    (s.withSinks (s.sinks.hand r e)).without r = s.without r := by
  unfold Sinks.hand
  split
  · cases ho : s.stdout with
    | none => simp [without, withSinks, sinks, ho]
    | some channel => simp [without, withSinks, sinks, ho]
  · simp [without, withSinks, sinks]

/-- Both appenders are handed a plain entry. -/
theorem Exchanged.handed (h : s.Exchanged x s') (e : PlainEntry) :
    Exchanged x (s.withSinks (s.sinks.hand x.appender e)) (s'.withSinks (s'.sinks.hand x.appender e)) where
  rest := by rw [without_hand, without_hand, h.rest]
  journal := h.journal
  accepts := ⟨Sinks.accepts_hand h.accepts.1 e, Sinks.accepts_hand h.accepts.2 e⟩
  types := by
    have htype : ∀ s : Store, s.sinks.Accepts x.appender →
        ((s.withSinks (s.sinks.hand x.appender e)).appender x.appender).typeName =
          (s.appender x.appender).typeName := fun s ha =>
      (congrArg Appender.typeName (Sinks.appender_hand ha e)).trans (Appender.typeName_hand _ e)
    rw [htype s h.accepts.1, htype s' h.accepts.2]
    exact h.types
  contexts := h.contexts
  named := h.named

end Store

/-! ## Entries that are handed over -/

namespace Dispatch

variable {h : Handle} {c : ContextRef} {a : AppenderRef} {debug : Value}

/-- Whether an entry can be recorded does not depend on its appender. -/
theorem event_error {type type' : String} {level msg : Value} {fields : Supplied} {e : Failure}
    (he : Report.event type level fields msg = .error e) : Report.event type' level fields msg = .error e := by
  unfold Report.event at he ⊢
  cases hl : level.shown with
  | error e' =>
    rw [hl] at he
    cases he
    rfl
  | ok shown =>
    cases hf : fields.copyIfPresent with
    | error e' =>
      rw [hl, hf] at he
      cases he
      rfl
    | ok kept =>
      rw [hl, hf] at he
      cases he

/-- An entry that cannot be recorded gets no further. -/
theorem handOver_unrecorded (hdebug : debug.isTrue = true) {e : Failure}
    (he : Report.event (s.appender a).typeName (.level l) (s.supplied h) (.text m) = .error e) :
    handOver debug c l a h m s = .error e s := by
  have htrace := trace_run (s := s) (a := a) (l := l) (h := h) (.text m) s.journal
  rw [he] at htrace
  unfold handOver
  rw [if_pos hdebug, run_bind_error htrace]

theorem recordOf_error {d : Delivery} {e : Failure} (he : s.recordOf debug d = .error e) : debug.isTrue = true ∧
    Report.event (s.appender d.appender).typeName d.level d.fields d.msg = .error e := by
  unfold Store.recordOf at he
  cases hdebug : debug.isTrue with
  | false =>
    rw [hdebug] at he
    cases he
  | true =>
    rw [hdebug, if_pos rfl] at he
    cases hevent : Report.event (s.appender d.appender).typeName d.level d.fields d.msg with
    | error e' =>
      rw [hevent] at he
      cases he
      exact ⟨rfl, rfl⟩
    | ok event =>
      rw [hevent] at he
      cases he

theorem append_plain (e : PlainEntry) (ha : s.sinks.Accepts a) (hs : s.supplied h = .fields e.fields) :
    append a e.context (.level e.level) h (.text e.msg) s =
      .ok () (({ s with deliveries := s.deliveries ++ [e.delivery a] } : Store).withSinks (s.sinks.hand a e)) := by
  generalize hnoted : ({ s with deliveries := s.deliveries ++ [e.delivery a] } : Store) = s₁
  have hs₁ : s₁.supplied h = .fields e.fields := by
    rw [← hs, ← hnoted]
    cases h <;> rfl
  have ha₁ : s₁.sinks = s.sinks := by
    rw [← hnoted]
    rfl
  have hrun := receive_plain e (ha₁ ▸ ha) hs₁
  rw [ha₁] at hrun
  unfold append
  rw [run_bind_ok run_get, hs, ← hrun, ← hnoted]
  rfl

/-- A plain entry is handed to both appenders in the same way. -/
theorem handOver_exchanged (hx : s.Exchanged x s') (hs : s.supplied h = .fields f) (hf : f.IsPlain)
    (hm : m.shown = none) (debug : Value) (c : ContextRef) (l : Level) :
    Ends (Store.Exchanged x) Eq (handOver debug c l x.appender h m s) (handOver debug c l x.appender h m s') := by
  obtain ⟨e, hc, rfl, rfl, rfl⟩ := PlainEntry.of_isPlain hf hm (some c) l
  have htied : h.Tied Eq h := .refl fun _ _ => rfl
  have happend : ∀ s s', s.Exchanged x s' → s.supplied h = .fields e.fields → Ends (Store.Exchanged x) Eq
      (append x.appender (some c) (.level e.level) h (.text e.msg) s)
      (append x.appender (some c) (.level e.level) h (.text e.msg) s') := by
    intro s s' hx hs
    have hs' := ((Store.Exchanged.parallel x).supplied hx htied).trans hs
    rw [← hc, append_plain e hx.accepts.1 hs, append_plain e hx.accepts.2 hs']
    exact .ok rfl (((Store.Exchanged.attended x).delivered _ hx).handed e)
  unfold handOver
  split
  · -- The records of the entry differ in the name of the type.
    have hs' := ((Store.Exchanged.parallel x).supplied hx htied).trans hs
    have htrace := trace_run (s := s) (a := x.appender) (l := e.level) (h := h) (.text e.msg) s.journal
    have htrace' := trace_run (s := s') (a := x.appender) (l := e.level) (h := h) (.text e.msg) s'.journal
    rw [hs, Report.event_fields, hx.types.1] at htrace
    rw [hs', Report.event_fields, hx.types.2] at htrace'
    rw [run_seq_ok htrace, run_seq_ok htrace']
    refine happend _ _ (hx.reported (.cons (.append ..) .nil)) ?_
    rw [supplied_journal]
    exact hs
  · exact happend s s' hx hs

/-- What an entry that is handed over comes to, if it is plain as long as it can be recorded. -/
theorem handOver_own (hx : s.Exchanged x s')
    (hplain : ∀ records, s.recordOf debug ⟨x.appender, some c, .level l, s.supplied h, .text m⟩ = .ok records →
      (s.supplied h).IsPlain ∧ m.shown = none) :
    Ends (Store.Exchanged x) Eq (handOver debug c l x.appender h m s) (handOver debug c l x.appender h m s') := by
  cases hrecord : s.recordOf debug ⟨x.appender, some c, .level l, s.supplied h, .text m⟩ with
  | ok records =>
    obtain ⟨hf, hm⟩ := hplain records hrecord
    obtain ⟨f, hs, hf⟩ := hf.fields
    exact handOver_exchanged hx hs hf hm debug c l
  | error e =>
    obtain ⟨hdebug, hevent⟩ := recordOf_error hrecord
    have hsupplied := (Store.Exchanged.parallel x).supplied hx (h := h) (.refl fun _ _ => rfl)
    have hevent' : Report.event (s'.appender x.appender).typeName (.level l) (s'.supplied h) (.text m) = .error e := by
      rw [hsupplied]
      exact event_error hevent
    rw [handOver_unrecorded hdebug hevent, handOver_unrecorded hdebug hevent']
    exact .error e hx

/-- An entry that can be recorded is delivered. -/
theorem share_recorded {nested : Call → Session Unit} {call : Call} {s₁ : Store} {records : List Report}
    (hfields : entryFields nested c l call s = .ok h s₁)
    (hmsg : (formatMessage call.args call.templated).2 = .ok m)
    (hrecord : s₁.recordOf s.defaults.debug ⟨a, some c, .level l, s₁.supplied h, .text m⟩ = .ok records) :
    (share nested c l a call s).delivery = some ⟨a, some c, .level l, s₁.supplied h, .text m⟩ := by
  unfold share
  rw [hfields, hmsg]
  dsimp only
  rw [hrecord]

end Dispatch

/-! ## Dispatching -/

/-- The entry of a visit is plain, if it comes to an appender: its fields are, and its arguments show themselves as
they are. -/
def Visit.IsPlainFor (v : Visit) (r : AppenderRef) : Prop :=
  ∀ d ∈ v.share.delivery, d.appender = r → d.fields.IsPlain ∧ ∀ arg ∈ v.call.args, arg.ShowsItself

instance (v : Visit) (r : AppenderRef) : Decidable (v.IsPlainFor r) :=
  inferInstanceAs (Decidable (∀ d ∈ v.share.delivery, d.appender = r →
    d.fields.IsPlain ∧ ∀ arg ∈ v.call.args, arg.ShowsItself))

/-- With another appender in the place of one, a dispatch goes the same way if the entries that come to that
appender are plain. -/
theorem dispatchWithin_exchanged {caught : Tolerance} {depth : Nat} {around : List Handle} {call : Call}
    (hx : s.Exchanged x s')
    (hplain : ∀ v ∈ (Tree.of caught depth around call s).postorder, v.IsPlainFor x.appender) :
    Ends (Store.Exchanged x) Eq (dispatchWithin caught depth call s) (dispatchWithin caught depth call s') := by
  induction depth generalizing around call s s' with
  | zero => exact .error _ hx
  | succ depth ih =>
    have hdebug := hx.read (g := (·.defaults.debug)) fun _ => rfl
    have htied : call.Tied (s.GivesSame Eq s') call := ⟨rfl, rfl, .inl (.refl fun _ _ => rfl), rfl, rfl⟩
    rw [dispatchWithin_succ]
    rw [Tree.postorder_of_succ] at hplain
    obtain ⟨hinner, hown⟩ := List.forall_mem_append.1 hplain
    refine dispatchWith_ends (Store.Exchanged.parallel x) (Store.Exchanged.attended x) hx hdebug htied ?_ ?_
    · -- What producers send is plain too.
      intro sent hsent call' s' hcall hs'
      obtain rfl : call' = sent.1 := hcall.eq
      have hsent := ih hs' fun v hv => hinner v (List.mem_flatMap.2 ⟨sent, hsent, hv⟩)
      exact hsent.catching (caught sent.1)
    · intro c l a h h' s₁ s₁' msg hadm hfields hh hs₁ hmsg
      obtain rfl : h = h' := hh.eq.symm
      have hs₂ := (Store.Exchanged.attended x).reported call.mismatches hs₁
      by_cases ha : a = x.appender
      · subst ha
        refine Dispatch.handOver_own hs₂ fun records hrecord => ?_
        rw [Dispatch.supplied_journal] at hrecord ⊢
        have hdelivered := Dispatch.share_recorded hfields hmsg hrecord
        have hshare : call.share (sentWithin caught depth) s =
            Dispatch.share (sentWithin caught depth) c l x.appender call s := by
          unfold Call.share
          rw [hadm]
        rw [← hshare] at hdelivered
        have hvisit := hown (.of caught (depth + 1) around call s) (List.mem_singleton.2 rfl)
        obtain ⟨hf, hargs⟩ := hvisit _ hdelivered rfl
        exact ⟨hf, formatMessage_shows hargs hmsg⟩
      · exact Dispatch.handOver_abreast (Store.Exchanged.parallel x).toMirrored (Store.Exchanged.attended x)
          (Store.Exchanged.shared ha) hh _ c l msg hs₂

/-! ## The law -/

/-- The store with another appender in the place of one. -/
def Store.replace (s : Store) (r : AppenderRef) (a' : Appender) : Store :=
  { s with appenders := s.appenders.set r.index a' }

/-- What a session `x` does, in which entries are handed over, once with an appender and once with another one in
its place. -/
structure Store.Interchanges (s : Store) (r : AppenderRef) (a' : Appender) (ds : List Delivery)
    (x : Session Unit) : Prop where
  outcome : x.outcome (s.replace r a') = x.outcome s
  /-- All is the same but for the appender, what is on the standard output, and the journal: the calls of
  producers, what is handed over, and all the rest. -/
  rest : (x.leaves (s.replace r a')).without r = (x.leaves s).without r
  /-- Reports are the same, but for the name of the type in the records of entries, and for how the appender
  is shown where a source makes it a default. -/
  journal : List.Forall₂ (Report.Alike (s.exchange r a')) (x.leaves s).journal
    (x.leaves (s.replace r a')).journal
  deliveries : (x.leaves s).deliveries = s.deliveries ++ ds
  /-- What is handed over is taken once, by appenders and the standard output; -/
  sinks : (x.leaves s).sinks = ds.foldl Sinks.take s.sinks ∧
    (x.leaves (s.replace r a')).sinks = ds.foldl Sinks.take (s.replace r a').sinks
  /-- a plain entry in the form of its appender; -/
  taken : ∀ (k : Sinks) (e : PlainEntry), k.Accepts r → k.take (e.delivery r) = k.hand r e
  /-- and plain entries are all that the appender is handed. -/
  handed : ∃ es : List (PlainEntry), ds.filter (·.appender = r) = es.map (·.delivery r) ∧
    (x.leaves s).appender r = es.foldl Appender.hand (s.appender r) ∧
    (x.leaves (s.replace r a')).appender r = es.foldl Appender.hand a'

namespace Store

theorem appender_replace (ha : s.sinks.Accepts r) (a' : Appender) : (s.replace r a').appender r = a' := by
  refine appender_received (fun he => ?_) a'
  unfold Sinks.Accepts at ha
  rw [show s.sinks.appender r = .plain .none from he] at ha
  exact ha

theorem exchanged_replace {a' : Appender} (ha : s.sinks.Accepts r)
    (ha' : (s.replace r a').sinks.Accepts r) :
    s.Exchanged (s.exchange r a') (s.replace r a') where
  rest := by simp [without, replace, exchange]
  journal := List.forall₂_same.2 fun r _ => .same r
  accepts := ⟨ha, ha'⟩
  types := ⟨rfl, congrArg Appender.typeName (appender_replace ha a')⟩
  contexts := rfl
  named p changes hmem c hc hnames := ⟨p, changes, hmem, c, hc, hnames⟩

end Store

/-- The delivery of a visit is a plain entry. -/
theorem Visit.IsPlainFor.delivery {caught : Tolerance} {depth : Nat} {around : List Handle} {call : Call} {v : Visit}
    (hof : v = .of caught depth around call s) (h : v.IsPlainFor r) {d : Delivery}
    (hd : v.share.delivery = some d) (hr : d.appender = r) : ∃ e : PlainEntry, e.delivery r = d := by
  obtain ⟨hfields, hargs⟩ := h d hd hr
  obtain ⟨f, hf, hplain⟩ := hfields.fields
  subst hof
  cases depth with
  | zero => cases hd
  | succ depth =>
    obtain ⟨⟨c, l, -, hc, hl⟩, m, hmsg, hm⟩ : d.IsOf call s := Call.share_isOf hd
    obtain ⟨e, hec, rfl, rfl, rfl⟩ := PlainEntry.of_isPlain hplain (formatMessage_shows hargs hmsg) (some c) l
    refine ⟨e, ?_⟩
    obtain ⟨a, context, level, fields, msg⟩ := d
    cases hr
    cases hc
    cases hl
    cases hf
    cases hm
    rw [← hec]
    rfl

/-- What an appender is handed in a tree of dispatches are plain entries, if the visits are. -/
theorem Tree.exists_plainEntries {caught : Tolerance} {depth : Nat} {call : Call}
    (hplain : ∀ v ∈ (Tree.of caught depth [] call s).postorder, v.IsPlainFor r) :
    ∃ es : List (PlainEntry),
      (Tree.of caught depth [] call s).deliveries.filter (·.appender = r) = es.map (·.delivery r) := by
  have hall : ∀ d ∈ (Tree.of caught depth [] call s).deliveries.filter (·.appender = r),
      d ∈ Set.range fun e : PlainEntry => e.delivery r := by
    intro d hd
    obtain ⟨hd, hr⟩ := List.mem_filter.1 hd
    obtain ⟨v, hv, hd⟩ := List.mem_filterMap.1 hd
    obtain ⟨depth, hof, -⟩ := Tree.forall_postorder (Q := fun _ _ _ => True) (fun _ _ _ _ _ _ _ => trivial) trivial v hv
    exact (hplain v hv).delivery hof hd (of_decide_eq_true hr)
  obtain ⟨es, hes⟩ : (Tree.of caught depth [] call s).deliveries.filter (·.appender = r) ∈
      Set.range (List.map fun e : PlainEntry => e.delivery r) := by
    rw [Set.range_list_map]
    exact hall
  exact ⟨es, hes.symm⟩

theorem dispatchWithin_interchanges {caught : Tolerance} {depth : Nat} {call : Call} {a' : Appender}
    (ha : s.sinks.Accepts r) (ha' : (s.replace r a').sinks.Accepts r)
    (hplain : ∀ v ∈ (Tree.of caught depth [] call s).postorder, v.IsPlainFor r) :
    s.Interchanges r a' (Tree.of caught depth [] call s).deliveries (dispatchWithin caught depth call) := by
  have hends := dispatchWithin_exchanged (Store.exchanged_replace ha ha') hplain
  have hleaves := hends.leaves
  have hshares : s.Shares _ ((dispatchWithin caught depth call).leaves s) := dispatchWithin_shares depth [] call s
  have hshares' : (s.replace r a').Shares _ ((dispatchWithin caught depth call).leaves (s.replace r a')) :=
    dispatchWithin_shares depth [] call _
  have hdeliveries := hshares.deliveries
  have hdeliveries' := hshares'.deliveries
  have hsinks := hshares.sinks
  have hsinks' := hshares'.sinks
  rw [List.filterMap_map] at hdeliveries hdeliveries' hsinks hsinks'
  -- The same is handed over on both sides.
  have hsame : ((Tree.of caught depth [] call (s.replace r a')).postorder.filterMap (·.share.delivery)) =
      (Tree.of caught depth [] call s).postorder.filterMap (·.share.delivery) := by
    have hread := hleaves.read (g := (·.deliveries)) fun _ => rfl
    rw [hdeliveries, hdeliveries'] at hread
    exact List.append_cancel_left hread
  have hsinks' : ((dispatchWithin caught depth call).leaves (s.replace r a')).sinks =
      (Tree.of caught depth [] call s).deliveries.foldl Sinks.take (s.replace r a').sinks :=
    hsinks'.trans (congrArg (List.foldl Sinks.take _) hsame)
  obtain ⟨es, hes⟩ := Tree.exists_plainEntries hplain
  refine ⟨hends.outcome, hleaves.rest, hleaves.journal, hdeliveries, ⟨hsinks, hsinks'⟩,
    fun k e hk => Sinks.take_plain hk e, es, hes, ?_, ?_⟩
  · exact (congrArg (Sinks.appender · r) hsinks).trans (Sinks.appender_takes ha hes)
  · refine (congrArg (Sinks.appender · r) hsinks').trans ((Sinks.appender_takes ha' hes).trans ?_)
    exact congrArg (List.foldl Appender.hand · es) (Store.appender_replace ha a')

/-- The shipped appenders are interchangeable: an entry goes the same way with any of them whose back end is there,
together with all entries that are sent on its way, if those that come to the appender are plain. -/
theorem appenders_interchangeable {a' : Appender} (ha : s.sinks.Accepts r)
    (ha' : (s.replace r a').sinks.Accepts r) (caught : Tolerance) (depth : Nat) (call : Call)
    (hplain : ∀ v ∈ (Tree.of caught depth [] call s).postorder, v.IsPlainFor r) :
    s.Interchanges r a' (Tree.of caught depth [] call s).deliveries (dispatchWithin caught depth call) ∧
      (caught = .strict →
        s.Interchanges r a' (Tree.of .strict depth [] call s).deliveries (dispatch depth call)) := by
  have h := dispatchWithin_interchanges ha ha' hplain
  refine ⟨h, ?_⟩
  rintro rfl
  exact dispatchWithin_strict depth call ▸ h

/-- A store with a context of fixed fields, and with one whose source sends an entry to it. Entries are traced. -/
def sharedFields : Store where
  mappings := [.ofList [(.str "self", .int 3), (.str "event", .str "Austin")]]
  contexts := [{}, { source := .static ⟨0⟩ }, { source := .contextual (.producer ⟨0⟩) }]
  producers := [{
    signature := none
    program := [.dispatch (.context ⟨1⟩) (.level .error) .nothing [.str "100%% of %s", .str "it"], .giveFields]
    typeName := "function"
    representation := "<function>" }]
  appenders := [.recording [] []]
  defaults := { appender := some ⟨0⟩, debug := .bool true }

/-- An entry through the second of these contexts. -/
def percentEntry : Call where
  context := some ⟨2⟩
  level := .level .panic
  fields := .live ⟨0⟩
  args := [.str "%d%%", .int 100]

theorem appenders_interchangeable_percentEntry :
    [Appender.stream "", .console, .numbered 10 [], .structured {} []].Forall fun a' =>
      sharedFields.Interchanges ⟨0⟩ a' (Tree.of .strict 2 [] percentEntry sharedFields).deliveries
        (dispatch 2 percentEntry) := by
  have hplain : ∀ v ∈ (Tree.of .strict 2 [] percentEntry sharedFields).postorder, v.IsPlainFor ⟨0⟩ := by
    decide +kernel
  have ha : sharedFields.sinks.Accepts ⟨0⟩ := trivial
  have hall : ∀ a', (sharedFields.replace ⟨0⟩ a').sinks.Accepts ⟨0⟩ →
      sharedFields.Interchanges ⟨0⟩ a' (Tree.of .strict 2 [] percentEntry sharedFields).deliveries
        (dispatch 2 percentEntry) := fun a' ha' =>
    (appenders_interchangeable ha ha' .strict 2 percentEntry hplain).2 rfl
  have hnumbered : (10 : Int) ≤ Level.debug.backendNumber := by decide
  have hstructured : StructuredLogger.AcceptsAll {} := ⟨fun _ _ => rfl, fun _ _ _ => rfl⟩
  exact ⟨hall _ trivial, hall _ rfl, hall _ hnumbered, hall _ hstructured⟩

end ContextLog
