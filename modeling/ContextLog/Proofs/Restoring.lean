import ContextLog.CommandLine.ExitCodes
/-!
# Trace settings

The root command sets how errors are shown while a command line is being run, and the program puts the settings
back afterwards. Besides the root command nothing touches them: reading a command line does not, and none of the
commands does, whether it comes to its end, is used wrongly or fails. So the settings behind a run tell how far it has
come, and they are put back whatever the run ends by, whichever way command lines are read and exit codes are found
(`mainWith_settings`).
-/

namespace ContextLog.CommandLine

variable {ε α β : Type} {parser : Parser} {argv : List String} {t t' : Terminal}

/-! ## Running -/

theorem run_bind_ok {x : Run α} {g : α → Run β} {a : α} (h : x t = .ok a t') : (x >>= g) t = g a t' := by
  simp only [bind, EStateM.bind, h]

theorem run_bind_error {x : Run α} {g : α → Run β} {halt : Halt} (h : x t = .error halt t') :
    (x >>= g) t = .error halt t' := by
  simp only [bind, EStateM.bind, h]

theorem bind_ok {x : Run α} {g : α → Run β} {b : β} (h : (x >>= g) t = .ok b t') :
    ∃ a t₁, x t = .ok a t₁ ∧ g a t₁ = .ok b t' := by
  cases hx : x t with
  | ok a t₁ => exact ⟨a, t₁, rfl, by rwa [run_bind_ok hx] at h⟩
  | error halt t₁ =>
    rw [run_bind_error hx] at h
    cases h

/-- The terminal that a run ends on. -/
def endsOn (x : EStateM ε Terminal α) (t : Terminal) : Terminal :=
  match x t with
  | .ok _ t' => t'
  | .error _ t' => t'

theorem endsOn_ok {x : EStateM ε Terminal α} {a : α} (h : x t = .ok a t') : endsOn x t = t' := by
  simp only [endsOn, h]

theorem endsOn_error {x : EStateM ε Terminal α} {e : ε} (h : x t = .error e t') : endsOn x t = t' := by
  simp only [endsOn, h]

/-! ## What does not touch the settings -/

/-- A run that leaves the trace settings as they are. -/
def Steady (x : Run α) : Prop := ∀ t, (endsOn x t).settings = t.settings

namespace Steady

theorem pure (a : α) : Steady (pure a : Run α) := fun _ => rfl

theorem throw (halt : Halt) : Steady (throw halt : Run α) := fun _ => rfl

theorem get : Steady (get : Run Terminal) := fun _ => rfl

theorem bind {x : Run α} {f : α → Run β} (hx : Steady x) (hf : ∀ a, Steady (f a)) : Steady (x >>= f) := by
  intro t
  have hfirst := hx t
  cases h : x t with
  | ok a t₁ =>
    rw [endsOn_ok h] at hfirst
    rw [endsOn, run_bind_ok h]
    exact (hf a t₁).trans hfirst
  | error halt t₁ =>
    rw [endsOn_error h] at hfirst
    rw [endsOn_error (run_bind_error h)]
    exact hfirst

theorem ite {p : Prop} [Decidable p] {x y : Run α} (hx : Steady x) (hy : Steady y) :
    Steady (if p then x else y) := by
  split
  · exact hx
  · exact hy

theorem checked (r : Except UsageFault α) : Steady (checked r) := by
  cases r with
  | ok a => exact pure a
  | error fault => exact throw _

theorem onStore (x : Session α) : Steady (onStore x) := by
  intro t
  unfold endsOn CommandLine.onStore
  cases x t.store <;> rfl

theorem echo (line : String) : Steady (echo line) := fun _ => rfl

end Steady

/-! ## The commands -/

theorem parsed_steady (r : Except Stop α) : Steady (parsed r) := by
  match r with
  | .ok a => exact .pure a
  | .error (.usage fault) => exact .throw _
  | .error (.answered none) => exact .throw _
  | .error (.answered (some line)) => exact .bind (.echo line) fun _ => .throw _

theorem info_steady : Steady info := by
  refine .bind .get fun t => ?_
  cases t.distribution with
  | none => exact .echo _
  | some d =>
    exact .bind (.echo _) fun _ => .bind (.echo _) fun _ => .bind (.echo _) fun _ => .ite (.pure _) (.echo _)

theorem levels_steady : Steady levels := by
  unfold levels
  generalize Level.all = ls
  induction ls with
  | nil => exact .pure _
  | cons l ls ih => exact .bind (.echo _) fun _ => ih

theorem parseLevel_steady (text : String) : Steady (parseLevel text) := by
  unfold parseLevel
  cases Level.ofWord? text with
  | none => exact .throw _
  | some l => exact .echo _

theorem sendRequest_steady (r : EmitRequest) : Steady (sendRequest r) :=
  .bind (.onStore _) fun _ => .bind (.onStore _) fun _ => .bind (.checked _) fun _ => .onStore _

theorem commands_steady : ∀ command ∈ commands, ∀ v, Steady (command.run v) := by
  simp only [commands, List.forall_mem_cons]
  exact ⟨fun _ => info_steady, fun _ => levels_steady, fun _ => parseLevel_steady _, fun _ => sendRequest_steady _,
    fun _ => .onStore _, nofun⟩

/-! ## The root command -/

theorem resolve_steady (parser : Parser) (argv : List String) : Steady (resolve parser argv) :=
  .bind .get fun _ => .bind (parsed_steady _) fun _ => .pure _

/-- What is found is one of the commands. -/
theorem command_of_resolve {called : Called} (h : resolve parser argv t = .ok called t') : Steady called.command := by
  obtain ⟨_, _, -, h⟩ := bind_ok h
  obtain ⟨found, _, -, h⟩ := bind_ok h
  cases h
  exact .bind (parsed_steady _) fun v => commands_steady _ (List.get_mem _ _) v

/-! ## What the root command sets -/

/-- A setting that the root command sets. -/
inductive Setting
  | traceback (on : Bool)
  | color (on : Bool)

def Setting.traceback? : Setting → Option Bool
  | traceback on => some on
  | color _ => none

def Setting.color? : Setting → Option Bool
  | traceback _ => none
  | color on => some on

/-- The settings after some of them have been set: each as it was last set, or as it was before. -/
def assigned (sets : List Setting) (previous : TraceSettings) : TraceSettings where
  traceback := (sets.filterMap Setting.traceback?).getLast?.getD previous.traceback
  color := (sets.filterMap Setting.color?).getLast?.getD previous.color

/-- What is done when the command has been found, step by step. -/
def Called.steps (called : Called) : List (Run Unit) :=
  [modify fun t => { t with settings.traceback := called.traceback },
    modify fun t => { t with settings.color := called.traceback }, called.command]

/-- The root command as far as its step `n`, where an interrupt may end it. -/
def rootUpTo (n : Nat) (parser : Parser) (argv : List String) : Run Unit := do
  let called ← resolve parser argv
  (called.steps.take n).forM id

/-- What the root command sets as far as its step `n`: nothing unless it finds a command. -/
def rootSets (n : Nat) (parser : Parser) (argv : List String) (t : Terminal) : List Setting :=
  match resolve parser argv t with
  | .ok called _ => [.traceback called.traceback, .color called.traceback].take n
  | .error _ _ => []

theorem rootUpTo_all (parser : Parser) (argv : List String) : rootUpTo 3 parser argv = root parser argv := by
  refine congrArg (resolve parser argv >>= ·) (funext fun called => ?_)
  simp only [Called.steps, setTraces, List.take_succ_cons, List.take_nil, List.forM_eq_forM, List.forM_cons,
    List.forM_nil, id_eq, bind_assoc, bind_pure_unit]

theorem rootUpTo_settings (n : Nat) (parser : Parser) (argv : List String) (t : Terminal) :
    (endsOn (rootUpTo n parser argv) t).settings = assigned (rootSets n parser argv t) t.settings := by
  have hbefore := resolve_steady parser argv t
  cases h : resolve parser argv t with
  | error halt t₁ =>
    rw [endsOn_error h] at hbefore
    rw [rootUpTo, endsOn_error (run_bind_error h), rootSets, h]
    exact hbefore
  | ok called t₁ =>
    rw [endsOn_ok h] at hbefore
    rw [endsOn, rootUpTo, run_bind_ok h, rootSets, h, ← hbefore]
    match n with
    | 0 => rfl
    | 1 => rfl
    | 2 => rfl
    | n + 3 =>
      have hsteps : called.steps.take (n + 3) = called.steps := List.take_of_length_le (Nat.le_add_left 3 n)
      have hcommand : Steady (called.command >>= fun _ => pure ()) := .bind (command_of_resolve h) fun _ => .pure ()
      rw [hsteps]
      simp only [List.take_succ_cons, List.take_nil]
      exact hcommand { t₁ with settings := ⟨called.traceback, called.traceback⟩ }

/-! ## Ending -/

/-- The terminal behind a run of the program, with its settings put back or as they are. -/
def Terminal.after (previous : Terminal) (restore : Bool) (t : Terminal) : Terminal :=
  if restore then { t with settings := previous.settings } else t

section ending

variable {tools : ExitTools} {command : Run Unit} {code : Int} {failure : Failure}

theorem tryCatch_run (x : Program α) (handle : Failure → Program α) (t : Terminal) :
    tryCatch x handle t = match x t with
      | .ok a t' => .ok a t'
      | .error failure t' => handle failure t' := by
  show EStateM.tryCatch x handle t = _
  unfold EStateM.tryCatch
  cases x t <;> rfl

theorem tryFinally_ok {x : Program α} {last : Program Unit} {a : α} {t'' : Terminal} (hx : x t = .ok a t')
    (hlast : last t' = .ok () t'') : (tryFinally x last : Program α) t = .ok a t'' := by
  simp only [tryFinally, tryFinally', MonadFinally.tryFinally', Functor.map, EStateM.map, hx, hlast]

theorem exitOf_of_ok (h : tools.run command t = .ok code t') : tools.exitOf command t = .ok code t' := by
  rw [ExitTools.exitOf, tryCatch_run, h]

theorem exitOf_of_error (h : tools.run command t = .error failure t') :
    tools.exitOf command t = (do
      tools.report t'.settings.traceback (reportLimit t'.settings.traceback)
      tools.codeOf failure : Program Int) t' := by
  rw [ExitTools.exitOf, tryCatch_run, h]
  exact rfl

theorem mainWith_of_ok (h : tools.exitOf (root parser argv) t = .ok code t') (restore : Bool) :
    mainWith parser tools argv restore t = .ok code (t.after restore t') :=
  tryFinally_ok h (by cases restore <;> rfl)

end ending

/-! ## The settings behind a run -/

/-- The settings behind a run in which the root command has made these: those that the command line leaves, as
far as it has come, or those from before if it was not begun. -/
inductive Ran (parser : Parser) (argv : List String) (t : Terminal) : List Setting → Terminal → Prop
  | apart {t' : Terminal} (h : t'.settings = t.settings) : Ran parser argv t [] t'
  | upTo (n : Nat) {t₀ t' : Terminal} (h₀ : t₀.settings = t.settings)
      (h : t'.settings = (endsOn (rootUpTo n parser argv) t₀).settings) :
    Ran parser argv t (rootSets n parser argv t₀) t'

theorem Ran.settings {sets : List Setting} (h : Ran parser argv t sets t') :
    t'.settings = assigned sets t.settings := by
  cases h with
  | apart h => exact h
  | upTo n h₀ h => rw [h, rootUpTo_settings, h₀]

/-- Tools that leave the settings to the root command. They may end a run by any failure and wherever they like,
but they do report a failure and find an exit code for it. -/
structure ExitTools.AreQuiet (tools : ExitTools) (parser : Parser) (argv : List String) : Prop where
  run : ∀ t, ∃ sets, Ran parser argv t sets (endsOn (tools.run (root parser argv)) t)
  report : ∀ traceback limit t, ∃ t', tools.report traceback limit t = .ok () t' ∧ t'.settings = t.settings
  codeOf : ∀ failure t, ∃ code t', tools.codeOf failure t = .ok code t' ∧ t'.settings = t.settings

theorem endsOn_exitTools (command : Run Unit) (t : Terminal) :
    endsOn ((exitTools none).run command) t = endsOn command t := by
  cases h : command t <;> simp only [endsOn, exitTools, h]

/-- The tools at work are quiet, also those that are interrupted. -/
theorem exitTools_areQuiet (interrupt : Option Failure) (parser : Parser) (argv : List String) :
    (exitTools interrupt).AreQuiet parser argv where
  run t := by
    cases interrupt with
    | some failure => exact ⟨[], .apart rfl⟩
    | none => exact ⟨rootSets 3 parser argv t, .upTo 3 rfl (by rw [rootUpTo_all, endsOn_exitTools])⟩
  report _ _ t := ⟨t, rfl, rfl⟩
  codeOf failure t := ⟨exitCode failure, t, rfl, rfl⟩

/-- A command line has an exit code whatever ends its run, and no failure adds to its settings. -/
theorem ExitTools.AreQuiet.exitOf {tools : ExitTools} (h : tools.AreQuiet parser argv) (t : Terminal) :
    ∃ code t', tools.exitOf (root parser argv) t = .ok code t' ∧
      t'.settings = (endsOn (tools.run (root parser argv)) t).settings := by
  cases hrun : tools.run (root parser argv) t with
  | ok code t₁ => exact ⟨code, t₁, exitOf_of_ok hrun, by rw [endsOn_ok hrun]⟩
  | error failure t₁ =>
    obtain ⟨t₂, hreport, ht₂⟩ := h.report t₁.settings.traceback (reportLimit t₁.settings.traceback) t₁
    obtain ⟨code, t₃, hcode, ht₃⟩ := h.codeOf failure t₂
    refine ⟨code, t₃, ?_, ?_⟩
    · rw [exitOf_of_error hrun]
      simp only [bind, EStateM.bind, hreport, hcode]
    · rw [ht₃, ht₂, endsOn_error hrun]

/-- What becomes of a command line and of the settings. -/
structure ExitLaw (parser : Parser) (tools : ExitTools) (argv : List String) (t : Terminal) : Prop where
  /-- There is an exit code, and the settings are put back. -/
  restored : ∃ code t', mainWith parser tools argv true t = .ok code t' ∧ t'.settings = t.settings
  /-- If the settings are to stay, they are as the root command has set them, or as before where it has not. -/
  kept : ∃ code t', mainWith parser tools argv false t = .ok code t' ∧
    ∀ sets, Ran parser argv t sets (endsOn (tools.run (root parser argv)) t) →
      t'.settings = assigned sets t.settings

/-- A command line is run to an exit code, whatever it ends by, and the trace settings are put back behind it. If
they are to stay, they are as the root command has set them last. -/
theorem mainWith_settings {tools : ExitTools} (h : tools.AreQuiet parser argv) (t : Terminal) :
    ExitLaw parser tools argv t := by
  obtain ⟨code, t₁, hexit, ht₁⟩ := h.exitOf t
  constructor
  case restored => exact ⟨code, t.after true t₁, mainWith_of_ok hexit true, rfl⟩
  case kept => exact ⟨code, t₁, mainWith_of_ok hexit false, fun sets hran => ht₁.trans hran.settings⟩

/-- Tools whose run is interrupted between the two settings. -/
def interruptedTools (argv : List String) : ExitTools where
  run _ t := .error (.raised (.error .interrupt 0 [] [])) (endsOn (rootUpTo 1 reader argv) t)
  report _ _ := pure ()
  codeOf failure := pure (exitCode failure)

theorem mainWith_interrupted :
    (interruptedTools ["--traceback", "levels"]).AreQuiet reader ["--traceback", "levels"] ∧
      ExitLaw reader (interruptedTools ["--traceback", "levels"]) ["--traceback", "levels"] {} := by
  have hquiet : (interruptedTools ["--traceback", "levels"]).AreQuiet reader ["--traceback", "levels"] :=
    ⟨fun t => ⟨rootSets 1 reader ["--traceback", "levels"] t, .upTo 1 rfl rfl⟩, fun _ _ t => ⟨t, rfl, rfl⟩,
      fun failure t => ⟨exitCode failure, t, rfl, rfl⟩⟩
  exact ⟨hquiet, mainWith_settings hquiet {}⟩

example : (endsOn (mainWith reader (interruptedTools ["--traceback", "levels"]) ["--traceback", "levels"] false)
    {}).settings = { traceback := true } := by decide +kernel

/-- The settings behind the program. -/
theorem runMain_settings (argv : List String) (restore : Bool) (interrupt : Option Failure) (t : Terminal) :
    (runMain argv restore interrupt t).2.settings =
      if restore ∨ interrupt.isSome then t.settings else assigned (rootSets 3 reader argv t) t.settings := by
  obtain ⟨code, t₁, hexit, ht₁⟩ := (exitTools_areQuiet interrupt reader argv).exitOf t
  rw [runMain, mainWith_of_ok hexit]
  cases restore with
  | true => rfl
  | false =>
    cases interrupt with
    | some failure => exact ht₁
    | none =>
      show t₁.settings = assigned (rootSets 3 reader argv t) t.settings
      rw [ht₁, endsOn_exitTools, ← rootUpTo_all, rootUpTo_settings]

end ContextLog.CommandLine
