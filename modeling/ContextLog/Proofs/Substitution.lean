import ContextLog.Proofs.Calls
import ContextLog.Proofs.Parallel
/-!
# One context in the place of another

Two contexts are alike if they have the same threshold, the same appender and the same source, and give the same
value for each key (`Context.Alike`). Then no dispatch can tell which of them stands in a store: every entry ends in
the same way and leaves the same behind (`Context.Alike.indistinct`). Only to report a context shows more of it than
that, since its values are shown in their order; so no producer may make the context the default one, which is
reported.
-/

namespace ContextLog

open Session

variable {q c : ContextRef} {b b' : Context} {s s' : Store} {caught : Tolerance} {depth : Nat}

/-- Two contexts that have the same attachments and give the same values. -/
structure Context.Alike (b b' : Context) : Prop where
  level : b'.level = b.level
  appender : b'.appender = b.appender
  source : b'.source = b.source
  value : ∀ key default, b'.value key default = b.value key default

namespace Store

/-- The store with another context in a place. -/
def put (s : Store) (q : ContextRef) (b : Context) : Store := { s with contexts := s.contexts.set q.index b }

/-- No producer makes a context the default one. -/
def Discreet (s : Store) (q : ContextRef) : Prop :=
  ∀ p changes, .configure changes ∈ (s.producer p).program → ∀ change ∈ changes, change ≠ .context (some q)

theorem context_put_of_ne (h : c ≠ q) : (s.put q b).context c = s.context c := by
  have hindex : q.index ≠ c.index := fun he => h (congrArg ContextRef.mk he.symm)
  unfold put context
  rw [List.getElem?_set_ne hindex]

theorem context_put_alike (h : (s.context q).Alike b) (c : ContextRef) :
    (s.context c).Alike ((s.put q b).context c) := by
  by_cases hc : c = q
  · subst hc
    by_cases hin : c.index < s.contexts.length
    · have hput : (s.put c b).context c = b := by
        unfold put context
        rw [List.getElem?_set_self hin]
        rfl
      rwa [hput]
    · have hput : s.put c b = s := by
        unfold put
        rw [List.set_eq_of_length_le (Nat.le_of_not_lt hin)]
      rw [hput]
      exact ⟨rfl, rfl, rfl, fun _ _ => rfl⟩
  · rw [context_put_of_ne hc]
    exact ⟨rfl, rfl, rfl, fun _ _ => rfl⟩

/-- Two stores that differ in one context, in which they are alike and which no producer makes the default one. -/
structure Swapped (q : ContextRef) (b : Context) (s s' : Store) : Prop where
  put : s' = s.put q b
  alike : (s.context q).Alike b
  discreet : s.Discreet q

namespace Swapped

/-- What can be read off a store without that context. -/
theorem read {γ : Type} {g : Store → γ} (h : s.Swapped q b s') (hg : ∀ s, g (s.put q b) = g s) : g s' = g s := by
  rw [h.put, hg]

/-- A change that leaves the contexts and the programs alone. -/
theorem change {g : Store → Store} (h : s.Swapped q b s') (hput : ∀ s, g (s.put q b) = (g s).put q b)
    (hcontexts : ∀ s, (g s).contexts = s.contexts)
    (hprograms : ∀ s p, ((g s).producer p).program = (s.producer p).program) : (g s).Swapped q b (g s') where
  put := by rw [h.put, hput]
  alike := by
    unfold Store.context
    rw [hcontexts]
    exact h.alike
  discreet p changes hmem := h.discreet p changes (hprograms s p ▸ hmem)

theorem context (h : s.Swapped q b s') (c : ContextRef) : (s.context c).Alike (s'.context c) :=
  h.put ▸ context_put_alike h.alike c

/-- All that is shown of a change is the same, unless it is the context. -/
theorem changeText (h : s.Swapped q b s') {change : Change} (hchange : change ≠ .context (some q)) :
    s'.changeText change = s.changeText change := by
  refine changeText_congr (h.read (g := (·.mapping)) fun _ => rfl) (h.read (g := (·.producer)) fun _ => rfl)
    (h.read (g := (·.appender)) fun _ => rfl) fun c hc => ?_
  have hne : c ≠ q := fun hcq => hchange (hcq ▸ hc)
  rw [h.put, context_put_of_ne hne]

theorem configured (h : s.Swapped q b s') {changes : List Change}
    (hchanges : ∀ change ∈ changes, change ≠ .context (some q)) :
    Ends (Swapped q b) Eq (configure changes s) (configure changes s') := by
  refine configure_ends h (h.read (g := (·.defaults)) fun _ => rfl)
    (fun change hmem => h.changeText (hchanges change hmem)) (fun d => ?_) fun shown s s' h => ?_
  · exact h.change (g := fun s => { s with defaults := d }) (fun _ => rfl) (fun _ => rfl) fun _ _ => rfl
  · exact h.change (g := fun s => { s with journal := s.journal ++ [.configured shown] }) (fun _ => rfl)
      (fun _ => rfl) fun _ _ => rfl

theorem parallel (q : ContextRef) (b : Context) : Store.Parallel Eq (Swapped q b) where
  mapping h hm := hm ▸ h.read (g := (·.mapping _)) fun _ => rfl
  edited {_ _ m _} f h hm := by
    subst hm
    exact h.change (g := fun s => { s with mappings := s.mappings.set m.index f }) (fun _ => rfl) (fun _ => rfl)
      fun _ _ => rfl
  fresh h := congrArg MappingRef.mk (h.read (g := (·.mappings.length)) fun _ => rfl).symm
  allotted f h := h.change (g := fun s => { s with mappings := s.mappings ++ [f] }) (fun _ => rfl) (fun _ => rfl)
    fun _ _ => rfl
  producer p h := h.read (g := (·.producer p)) fun _ => rfl
  called p h := h.change (g := (·.counted p)) (fun _ => rfl) (fun _ => rfl) fun s => program_called s p
  names h := h.read (g := (·.names)) fun _ => rfl
  value c key default h := (h.context c).value key default
  source c h := by
    rw [sourceOf, sourceOf, (h.context c).source]
    exact Source.tied_eq _
  admission context level h := by
    have hdefaults := h.read (g := (·.defaults)) fun _ => rfl
    exact admission_eq_of_gates fun c => ⟨hdefaults, (h.context c).level, (h.context c).appender⟩
  configured p changes h hmem := fun s s' h' => h'.configured (h.discreet p changes hmem)
  reset environment h := .ok rfl <| h.change (g := fun s => { s with
    defaults := (Defaults.ofEnvironment environment).1
    journal := s.journal ++ (Defaults.ofEnvironment environment).2 }) (fun _ => rfl) (fun _ => rfl) fun _ _ => rfl

theorem attended (q : ContextRef) (b : Context) : Store.Attended (Swapped q b) where
  reported rs h :=
    h.change (g := fun s => { s with journal := s.journal ++ rs }) (fun _ => rfl) (fun _ => rfl) fun _ _ => rfl
  delivered d h :=
    h.change (g := fun s => { s with deliveries := s.deliveries ++ [d] }) (fun _ => rfl) (fun _ => rfl) fun _ _ => rfl
  worker h := h.read (g := (·.onWorker)) fun _ => rfl
  stdout h := h.read (g := fun s => s.stdout.map (·.flushFailure)) fun _ => rfl
  stderr h := h.read (g := fun s => s.stderr.map (·.flushFailure)) fun _ => rfl

theorem shared (q : ContextRef) (b : Context) (a : AppenderRef) : Store.Shared a (Swapped q b) where
  appender h := h.read (g := (·.appender a)) fun _ => rfl
  received x h := h.change (g := fun s => { s with appenders := s.appenders.set a.index x }) (fun _ => rfl)
    (fun _ => rfl) fun _ _ => rfl
  printed {s s' channel channel'} line h ho ho' := by
    have hchannel := h.read (g := (·.stdout)) fun _ => rfl
    obtain rfl : channel' = channel := by simpa [ho, ho'] using hchannel
    exact h.change (g := fun s => { s with stdout := some { channel' with text := channel'.text ++ line } })
      (fun _ => rfl) (fun _ => rfl) fun _ _ => rfl

end Swapped

end Store

/-! ## Dispatching -/

theorem dispatchWithin_swapped (h : s.Swapped q b s') (call : Call) :
    Ends (Store.Swapped q b) Eq (dispatchWithin caught depth call s) (dispatchWithin caught depth call s') :=
  dispatchWithin_ends (Store.Swapped.parallel q b) (Store.Swapped.attended q b) (Store.Swapped.shared q b)
    (fun h => h.read (g := (·.defaults.debug)) fun _ => rfl) (fun hcall => by rw [hcall.eq]) h
    ⟨rfl, rfl, .inl (.refl fun _ _ => rfl), rfl, rfl⟩ depth

/-- Along every run of dispatches the stores differ in the one context only. -/
theorem Store.Swapped.through (h : s.Swapped q b s') (caught : Tolerance) (depth : Nat) (calls : List Call) :
    (s.through caught depth (calls.map .dispatch)).Swapped q b (s'.through caught depth (calls.map .dispatch)) := by
  induction calls generalizing s s' with
  | nil => exact h
  | cons call calls ih => exact ih (dispatchWithin_swapped h call).leaves

/-- No run of dispatches can tell which of two contexts stands in a store: every entry ends in the same way, and what
is left differs in the one context only. -/
def Context.Indistinct (b b' : Context) : Prop :=
  ∀ (s : Store) (q : ContextRef), s.context q = b → s.Discreet q → ∀ caught depth (calls : List Call) call,
    (dispatchWithin caught depth call).outcome ((s.put q b').through caught depth (calls.map .dispatch)) =
        (dispatchWithin caught depth call).outcome (s.through caught depth (calls.map .dispatch)) ∧
      (s.put q b').through caught depth (calls.map .dispatch) =
        (s.through caught depth (calls.map .dispatch)).put q b'

theorem Context.Alike.indistinct (h : b.Alike b') : b.Indistinct b' := by
  intro s q hq hdiscreet caught depth calls call
  have hswapped : s.Swapped q b' (s.put q b') := ⟨rfl, hq ▸ h, hdiscreet⟩
  have hrun := hswapped.through caught depth calls
  exact ⟨(dispatchWithin_swapped hrun call).outcome, hrun.put⟩

end ContextLog
