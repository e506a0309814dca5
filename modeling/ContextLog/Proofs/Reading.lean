import ContextLog.CommandLine.ExitCodes
/-!
# What others read and run

The program leaves two things to others: a parser reads command lines, and tools run a command to an exit code. Here
is what is relied on. Options stand in front of a command's name, or behind it and in front of two hyphens; a choice is
read in any letter case, the last one of an option counts, and a repeated option has all its values (`Parser.Finds`,
`Parser.Reads`). A run that comes to its end has the exit code 0, one that is used wrongly 2, and one that ends by a
panic or an exit 1; nothing is added to the standard output (`ExitTools.MapsOutcomes`). The reader and the tools at
work are of this kind.
-/

namespace ContextLog.CommandLine

/-- An option as it is written: alone, or with its value as the next word. -/
structure Written where
  option : String
  value : Option String := none
  deriving DecidableEq, Repr, Inhabited

/-- The words of options that are written one behind the other. -/
def wordsOf (options : List Written) : List String := options.flatMap fun w => w.option :: w.value.toList

/-- A parameter takes an option as it is written. -/
def Parameter.Takes : Parameter → Written → Prop
  | .choice _ option words _, w => w.option = option ∧ ∃ v, w.value = some v ∧ v.toLower ∈ words
  | .repeated _ option, w => w.option = option ∧ ∃ v, w.value = some v
  | .switch _ on off, w => (w.option = on ∨ w.option = off) ∧ w.value = none
  | .message _ _, _ => False

/-- The values of parameters for which options and other arguments are written. -/
structure Values.AreGiven (v : Values) (d : Declaration) (options : List Written) (args : List String) : Prop where
  /-- A choice is the word that is written last, in small letters, or its default. -/
  chosen : ∀ name option words default, .choice name option words default ∈ d.parameters →
    v.text name = (((options.filter (·.option = option)).getLast?.bind (·.value)).map String.toLower).getD default
  /-- A repeated option has all its values. -/
  repeated : ∀ name option, .repeated name option ∈ d.parameters →
    v.texts name = (options.filter (·.option = option)).filterMap (·.value)
  /-- A switch is on if the last of its options says so. -/
  switched : ∀ name on off, .switch name on off ∈ d.parameters →
    (v.flag name = true ↔ (options.filter fun w => w.option = on ∨ w.option = off).getLast?.map (·.option) = some on)
  /-- The other arguments are those that have to be there, and the rest. -/
  required : d.required.map v.text = args.take d.required.length
  rest : ∀ name, d.rest = some name → v.texts name = args.drop d.required.length

/-- The arguments of a command are read: options, two hyphens, and as many other arguments as it takes. -/
def Parser.Reads (parser : Parser) (d : Declaration) : Prop :=
  ∀ options args, (∀ w ∈ options, ∃ p ∈ d.parameters, p.Takes w) → d.required.length ≤ args.length →
    (d.rest = none → args.length = d.required.length) →
    ∃ v, parser.read d (wordsOf options ++ "--" :: args) = .ok v ∧ v.AreGiven d options args

/-- A command is found behind the options of its group, whatever comes behind its name. -/
def Parser.Finds (parser : Parser) (d : Declaration) (names : List String) : Prop :=
  ∀ options command args, (∀ w ∈ options, ∃ p ∈ d.parameters, p.Takes w) →
    ∃ v, parser.find d names (wordsOf options ++ names.get command :: args) =
        .ok { values := v, command, args } ∧ v.AreGiven d options []

/-- A command that ends on a terminal is run to an exit code, and nothing is added to the standard output. -/
def ExitTools.Exits (tools : ExitTools) (command : Run Unit) (t : Terminal) (code : Int) (ended : Terminal) : Prop :=
  ∃ t', tools.run command t = .ok code t' ∧ t'.store.stdout = ended.store.stdout

/-- The exit codes of runs that return, are used wrongly, or end by a panic or an exit. -/
structure ExitTools.MapsOutcomes (tools : ExitTools) : Prop where
  returned : ∀ {command t t'}, command t = .ok () t' → tools.Exits command t 0 t'
  usage : ∀ {command t t' fault}, command t = .error (.usage fault) t' → tools.Exits command t 2 t'
  panicked : ∀ {command t t' msg}, command t = .error (.failed (.panicked msg)) t' → tools.Exits command t 1 t'
  exited : ∀ {command t t'}, command t = .error (.failed .exited) t' → tools.Exits command t 1 t'

/-! ## The tools at work -/

theorem exitTools_run_ok {command : Run Unit} {t t' : Terminal} (h : command t = .ok () t') :
    (exitTools none).Exits command t 0 t' := ⟨t', by simp only [exitTools, h], rfl⟩

theorem exitTools_run_error {command : Run Unit} {t t' : Terminal} {halt : Halt} (h : command t = .error halt t') :
    (exitTools none).Exits command t halt.exitCode t' := ⟨t', by simp only [exitTools, h], rfl⟩

theorem exitTools_mapsOutcomes : (exitTools none).MapsOutcomes where
  returned := exitTools_run_ok
  usage := exitTools_run_error
  panicked := exitTools_run_error
  exited := exitTools_run_error

/-! ## Options that are read -/

/-- An option as the reader gives it. -/
def Written.given (w : Written) : GivenOption where
  name := w.option
  value := w.value.getD ""

/-- The reader knows an option of a declaration, and does not answer it by a line or by help. -/
structure Declaration.Knows (d : Declaration) (w : Written) : Prop where
  notEnd : w.option ≠ "--"
  isOption : isOption w.option.toList = true
  spec : readOptionArgument d.specs w.option.toList =
    .ok (if w.value.isSome then { waiting := some w.option } else { options := [{ name := w.option }] })
  unanswered : d.answer? w.given = none

section options

variable {d : Declaration} {options : List Written} {mixed : Bool} {words : List String} {read : Arguments}

theorem knows_valued {option : String} (hend : option ≠ "--") (hoption : isOption option.toList = true)
    (hspec : readOptionArgument d.specs option.toList = .ok { waiting := some option })
    (hanswer : ∀ value, d.answer? { name := option, value } = none) (v : String) :
    d.Knows { option, value := some v } := ⟨hend, hoption, hspec, hanswer v⟩

theorem knows_alone {option : String} (hend : option ≠ "--") (hoption : isOption option.toList = true)
    (hspec : readOptionArgument d.specs option.toList = .ok { options := [{ name := option }] })
    (hanswer : ∀ value, d.answer? { name := option, value } = none) : d.Knows { option } :=
  ⟨hend, hoption, hspec, hanswer ""⟩

theorem readArguments_written {w : Written} (hw : d.Knows w)
    (h : readArguments d.specs mixed none words = .ok read) :
    readArguments d.specs mixed none ((w.option :: w.value.toList) ++ words) =
      .ok { read with options := w.given :: read.options } := by
  obtain ⟨option, value⟩ := w
  rw [List.cons_append, readArguments, if_neg hw.notEnd, if_pos hw.isOption, hw.spec]
  cases value with
  | none =>
    dsimp only [Option.isSome, Option.toList_none, List.nil_append, bind, Except.bind]
    rw [if_neg Bool.false_ne_true, h]
    rfl
  | some v =>
    dsimp only [Option.isSome, Option.toList_some, List.cons_append, List.nil_append, bind, Except.bind]
    rw [if_pos rfl, readArguments, h]
    rfl

theorem readArguments_wordsOf (hw : ∀ w ∈ options, d.Knows w)
    (h : readArguments d.specs mixed none words = .ok read) :
    readArguments d.specs mixed none (wordsOf options ++ words) =
      .ok { read with options := options.map Written.given ++ read.options } := by
  induction options with
  | nil => exact h
  | cons w options ih =>
    obtain ⟨hhere, hrest⟩ := List.forall_mem_cons.1 hw
    rw [wordsOf, List.flatMap_cons, List.append_assoc]
    exact readArguments_written hhere (ih hrest)

theorem refused_ok {α : Type} (x : α) : refused (.ok x) = .ok x := rfl

/-- What is read is not answered. -/
theorem answered_written {positional : List String} (hw : ∀ w ∈ options, d.Knows w)
    (h : readArguments d.specs mixed none words = .ok { positional }) :
    answered d mixed (wordsOf options ++ words) = .ok { options := options.map Written.given, positional } := by
  have hread := readArguments_wordsOf hw h
  rw [List.append_nil] at hread
  have hnone : (options.map Written.given).findSome? d.answer? = none :=
    List.findSome?_eq_none_iff.2 (List.forall_mem_map.2 fun w hmem => (hw w hmem).unanswered)
  unfold answered
  rw [hread, refused_ok]
  simp only [bind, Except.bind, hnone]
  rfl

end options

/-! ## Values that are read -/

section values

variable (options : List Written) (positional : List String)

/-- What the reader gives for options that are written. -/
def writtenArguments : Arguments where
  options := options.map Written.given
  positional := positional

theorem filter_given {name : String} :
    (options.map Written.given).filter (·.name = name) = (options.filter (·.option = name)).map Written.given := by
  rw [List.filter_map]
  rfl

theorem last?_written (name : String) : (writtenArguments options positional).last? name =
    (options.filter (·.option = name)).getLast?.map fun w => w.value.getD "" := by
  rw [Arguments.last?, writtenArguments, filter_given, List.getLast?_map, Option.map_map]
  rfl

theorem all_written (name : String) : (writtenArguments options positional).all name =
    (options.filter (·.option = name)).map fun w => w.value.getD "" := by
  rw [Arguments.all, writtenArguments, filter_given, List.map_map]
  rfl

theorem switch_written (on off : String) : (writtenArguments options positional).switch on off = true ↔
    (options.filter fun w => w.option = on ∨ w.option = off).getLast?.map (·.option) = some on := by
  have hfilter : ((options.map Written.given).filter fun o => o.name = on || o.name = off) =
      (options.filter fun w => w.option = on ∨ w.option = off).map Written.given := by
    rw [List.filter_map]
    refine congrArg _ (congrArg (List.filter · options) (funext fun w => ?_))
    simp only [Function.comp_apply, Written.given, Bool.decide_or]
    rfl
  rw [Arguments.switch, writtenArguments, hfilter, List.getLast?_map, Option.map_map, decide_eq_true_iff]
  rfl

/-- Only options that are written are looked at. -/
theorem mem_order {a : Arguments} {name : String} (h : name ∈ a.order) : ∃ o ∈ a.options, o.name = name := by
  have hfold : ∀ (os : List GivenOption) (names : List String),
      name ∈ os.foldl (fun names o => if names.contains o.name then names else names ++ [o.name]) names →
        name ∈ names ∨ ∃ o ∈ os, o.name = name := by
    intro os
    induction os with
    | nil => exact fun names hmem => .inl hmem
    | cons o os ih =>
      intro names hmem
      rw [List.foldl_cons] at hmem
      rcases ih _ hmem with hnames | ⟨o', ho', hname⟩
      · split at hnames
        · exact .inl hnames
        · rcases List.mem_append.1 hnames with hnames | hnames
          · exact .inl hnames
          · exact .inr ⟨o, List.mem_cons_self, (List.mem_singleton.1 hnames).symm⟩
      · exact .inr ⟨o', List.mem_cons_of_mem _ ho', hname⟩
  exact (hfold a.options [] h).resolve_left List.not_mem_nil

end values

theorem readChoice_lower {words : List String} {value : String} (h : value.toLower ∈ words) :
    Parameter.readChoice words value = .ok value.toLower := by
  unfold Parameter.readChoice
  cases hfind : words.find? (· = value.map Char.toLower) with
  | none =>
    have hother := List.find?_eq_none.1 hfind _ h
    exact absurd (decide_eq_true rfl) hother
  | some choice =>
    have hfound := List.find?_some hfind
    have hsame : choice = value.toLower := of_decide_eq_true hfound
    rw [hsame]

/-! ## The reader -/

section reader

variable {options : List Written} {args : List String}

/-- The value of a choice among options that are written. -/
def chosen (options : List Written) (option default : String) : String :=
  (((options.filter (·.option = option)).getLast?.bind (·.value)).map String.toLower).getD default

/-- A choice has the word of the option that is written last. -/
theorem choice_written {option : String} {words : List String} (default : String)
    (h : ∀ w ∈ options, w.option = option → ∃ v, w.value = some v ∧ v.toLower ∈ words) (positional : List String) :
    ((((writtenArguments options positional).last? option).bind fun v =>
      (Parameter.readChoice words v).toOption)).getD default = chosen options option default := by
  rw [last?_written, chosen]
  cases hlast : (options.filter (·.option = option)).getLast? with
  | none => rfl
  | some w =>
    obtain ⟨hw, hoption⟩ := List.mem_filter.1 (List.mem_of_getLast? hlast)
    obtain ⟨v, hv, hmem⟩ := h w hw (of_decide_eq_true hoption)
    simp only [Option.map_some, hv, Option.getD_some, Option.bind_some, readChoice_lower hmem, Except.toOption]

theorem repeated_written {option : String} (h : ∀ w ∈ options, w.option = option → ∃ v, w.value = some v)
    (positional : List String) : (writtenArguments options positional).all option =
      (options.filter (·.option = option)).filterMap (·.value) := by
  rw [all_written]
  induction options with
  | nil => rfl
  | cons w options ih =>
    obtain ⟨hhere, hrest⟩ := List.forall_mem_cons.1 h
    by_cases hw : w.option = option
    · obtain ⟨v, hv⟩ := hhere hw
      simp [hw, hv, ih hrest]
    · simp [hw, ih hrest]

theorem emit_takes {w : Written} (h : ∃ p ∈ emitDeclaration.parameters, p.Takes w) :
    ((w.option = "--level" ∨ w.option = "--threshold") ∧ ∃ v, w.value = some v ∧ v.toLower ∈ levelChoices) ∨
      (w.option = "--field" ∧ ∃ v, w.value = some v) ∨
      ((w.option = "--println" ∨ w.option = "--printf") ∧ w.value = none) := by
  obtain ⟨p, hp, hw⟩ := h
  simp only [emitDeclaration, List.mem_cons, List.not_mem_nil, or_false] at hp
  rcases hp with rfl | rfl | rfl | rfl
  · exact .inl ⟨.inl hw.1, hw.2⟩
  · exact .inl ⟨.inr hw.1, hw.2⟩
  · exact .inr (.inl hw)
  · exact .inr (.inr hw)

/-- A choice is given with one of its words. -/
theorem emit_choice {w : Written} (h : ∃ p ∈ emitDeclaration.parameters, p.Takes w)
    (hoption : w.option = "--level" ∨ w.option = "--threshold") :
    ∃ v, w.value = some v ∧ v.toLower ∈ levelChoices := by
  rcases emit_takes h with ⟨-, hv⟩ | ⟨hother, -⟩ | ⟨hother, -⟩
  · exact hv
  · simp [hother] at hoption
  · rcases hother with hother | hother <;> simp [hother] at hoption

/-- A field is given with a text. -/
theorem emit_field {w : Written} (h : ∃ p ∈ emitDeclaration.parameters, p.Takes w) (hoption : w.option = "--field") :
    ∃ v, w.value = some v := by
  rcases emit_takes h with ⟨hother, -⟩ | ⟨-, hv⟩ | ⟨hother, -⟩
  · rcases hother with hother | hother <;> simp [hother] at hoption
  · exact hv
  · rcases hother with hother | hother <;> simp [hother] at hoption

theorem emit_knows {w : Written} (h : ∃ p ∈ emitDeclaration.parameters, p.Takes w) : emitDeclaration.Knows w := by
  obtain ⟨option, value⟩ := w
  rcases emit_takes h with ⟨rfl | rfl, v, rfl, -⟩ | ⟨rfl, v, rfl⟩ | ⟨rfl | rfl, rfl⟩
  · exact knows_valued (by decide) (by decide) rfl (fun _ => rfl) v
  · exact knows_valued (by decide) (by decide) rfl (fun _ => rfl) v
  · exact knows_valued (by decide) (by decide) rfl (fun _ => rfl) v
  · exact knows_alone (by decide) (by decide) rfl (fun _ => rfl)
  · exact knows_alone (by decide) (by decide) rfl (fun _ => rfl)

/-- The values of the command that sends an entry. -/
theorem emit_areGiven (h : ∀ w ∈ options, ∃ p ∈ emitDeclaration.parameters, p.Takes w) (hargs : 1 ≤ args.length) :
    (emitDeclaration.values (writtenArguments options args)).AreGiven emitDeclaration options args := by
  constructor
  case chosen =>
    intro name option words default hp
    simp only [emitDeclaration, List.mem_cons, List.not_mem_nil, or_false, reduceCtorEq, Parameter.choice.injEq] at hp
    rcases hp with ⟨rfl, rfl, rfl, rfl⟩ | ⟨rfl, rfl, rfl, rfl⟩
    · exact choice_written "info" (fun w hw hoption => emit_choice (h w hw) (.inl hoption)) args
    · exact choice_written "debug" (fun w hw hoption => emit_choice (h w hw) (.inr hoption)) args
  case repeated =>
    intro name option hp
    simp only [emitDeclaration, List.mem_cons, List.not_mem_nil, or_false, reduceCtorEq, false_or,
      Parameter.repeated.injEq] at hp
    obtain ⟨rfl, rfl⟩ := hp
    exact repeated_written (fun w hw => emit_field (h w hw)) args
  case switched =>
    intro name on off hp
    simp only [emitDeclaration, List.mem_cons, List.not_mem_nil, or_false, reduceCtorEq, false_or,
      Parameter.switch.injEq] at hp
    obtain ⟨rfl, rfl, rfl⟩ := hp
    exact switch_written options args "--println" "--printf"
  case required =>
    cases args with
    | nil => cases hargs
    | cons message args => rfl
  case rest =>
    rintro name ⟨⟩
    rfl

theorem forM_ok {α : Type} {check : α → Except UsageFault Unit} {xs : List α} (h : ∀ x ∈ xs, check x = .ok ()) :
    xs.forM check = .ok () := by
  induction xs with
  | nil => rfl
  | cons x xs ih =>
    obtain ⟨hx, hxs⟩ := List.forall_mem_cons.1 h
    rw [List.forM_eq_forM, List.forM_cons, hx]
    exact ih hxs

theorem check_choice {w : Written} {option : String} {words : List String}
    (h : w.option = option → ∃ v, w.value = some v ∧ v.toLower ∈ words) (name default : String) :
    Parameter.check w.option (w.value.getD "") (.choice name option words default) = .ok () := by
  show (if option = w.option then (Parameter.readChoice words (w.value.getD "")).map fun _ => () else .ok ()) = _
  by_cases hoption : option = w.option
  · obtain ⟨v, hv, hword⟩ := h hoption.symm
    rw [if_pos hoption, hv, Option.getD_some, readChoice_lower hword]
    rfl
  · rw [if_neg hoption]

/-- Choices that are written last are checked. -/
theorem emit_check (h : ∀ w ∈ options, ∃ p ∈ emitDeclaration.parameters, p.Takes w) (hargs : 1 ≤ args.length) :
    emitDeclaration.check (writtenArguments options args) = .ok () := by
  have horder : (writtenArguments options args).order.forM (fun name => emitDeclaration.parameters.forM
      (Parameter.check name (((writtenArguments options args).last? name).getD ""))) = .ok () := by
    refine forM_ok fun name hname => forM_ok fun p hp => ?_
    obtain ⟨o, ho, rfl⟩ := mem_order hname
    obtain ⟨w, hw, rfl⟩ := List.mem_map.1 ho
    have hne : options.filter (·.option = w.given.name) ≠ [] :=
      List.ne_nil_of_mem (List.mem_filter.2 ⟨hw, decide_eq_true rfl⟩)
    obtain ⟨last, hlast⟩ := Option.isSome_iff_exists.1 (List.getLast?_isSome.2 hne)
    obtain ⟨hmem, hsame⟩ := List.mem_filter.1 (List.mem_of_getLast? hlast)
    have hoption : last.option = w.given.name := of_decide_eq_true hsame
    rw [last?_written, hlast, ← hoption]
    simp only [emitDeclaration, List.mem_cons, List.not_mem_nil, or_false] at hp
    rcases hp with rfl | rfl | rfl | rfl
    · exact check_choice (fun he => emit_choice (h last hmem) (.inl he)) "level" "info"
    · exact check_choice (fun he => emit_choice (h last hmem) (.inr he)) "threshold" "debug"
    · rfl
    · rfl
  unfold Declaration.check
  rw [horder]
  have hmissing : ¬ (writtenArguments options args).positional.length < emitDeclaration.required.length :=
    Nat.not_lt.2 hargs
  simp only [bind, Except.bind, if_neg hmissing]
  rfl

/-- The reader reads the arguments of the command that sends an entry. -/
theorem reader_reads : reader.Reads emitDeclaration := by
  intro options args h hargs _
  have hread := answered_written (fun w hw => emit_knows (h w hw))
    (show readArguments emitDeclaration.specs true none ("--" :: args) = .ok { positional := args } from rfl)
  refine ⟨_, ?_, emit_areGiven h hargs⟩
  show readCommand emitDeclaration _ = _
  unfold readCommand
  rw [hread]
  show (refused (emitDeclaration.check (writtenArguments options args)) >>= fun _ =>
    pure (emitDeclaration.values (writtenArguments options args))) = _
  rw [emit_check h hargs]
  rfl

/-! ## The root command -/

theorem root_takes {version : String} {w : Written} (h : ∃ p ∈ (rootDeclaration version).parameters, p.Takes w) :
    (w.option = "--traceback" ∨ w.option = "--no-traceback") ∧ w.value = none := by
  obtain ⟨p, hp, hw⟩ := h
  simp only [rootDeclaration, List.mem_cons, List.not_mem_nil, or_false] at hp
  rcases hp with rfl | rfl
  · exact hw.elim
  · exact hw

theorem root_knows {version : String} {w : Written} (h : ∃ p ∈ (rootDeclaration version).parameters, p.Takes w) :
    (rootDeclaration version).Knows w := by
  obtain ⟨option, value⟩ := w
  obtain ⟨rfl | rfl, rfl⟩ := root_takes h
  · exact knows_alone (by decide) (by decide) rfl (fun _ => rfl)
  · exact knows_alone (by decide) (by decide) rfl (fun _ => rfl)

theorem root_areGiven (version : String) (options : List Written) (positional : List String) :
    ((rootDeclaration version).values (writtenArguments options positional)).AreGiven (rootDeclaration version)
      options [] := by
  constructor
  case switched =>
    intro name on off hp
    simp only [rootDeclaration, List.mem_cons, List.not_mem_nil, or_false, reduceCtorEq, false_or,
      Parameter.switch.injEq] at hp
    obtain ⟨rfl, rfl, rfl⟩ := hp
    exact switch_written options positional "--traceback" "--no-traceback"
  case required => rfl
  case rest => nofun
  all_goals simp [rootDeclaration]

/-- The reader finds the commands of the program. -/
theorem reader_finds (version : String) : reader.Finds (rootDeclaration version) (commands.map (·.name)) := by
  intro options command args h
  have hname : (commands.map (·.name)).get command ≠ "--" ∧
      isOption ((commands.map (·.name)).get command).toList = false ∧
      (commands.map (·.name)).finIdxOf? ((commands.map (·.name)).get command) = some command := by
    revert command
    decide
  obtain ⟨hend, hoption, hindex⟩ := hname
  generalize hname : (commands.map (·.name)).get command = name at hend hoption hindex
  have hstop : readArguments (rootDeclaration version).specs false none (name :: args) =
      .ok { positional := name :: args } := by
    rw [readArguments, if_neg hend, if_neg (Bool.not_eq_true _ ▸ hoption)]
    rfl
  have hread := answered_written (fun w hw => root_knows (h w hw)) hstop
  refine ⟨_, ?_, root_areGiven version options (name :: args)⟩
  show findCommand _ _ _ = _
  unfold findCommand
  have hne : (wordsOf options ++ name :: args).isEmpty = false := by simp
  rw [hread]
  simp only [hne, Bool.false_eq_true, if_false, bind, Except.bind, hindex]
  rfl

end reader

end ContextLog.CommandLine
