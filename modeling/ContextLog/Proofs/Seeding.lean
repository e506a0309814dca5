import ContextLog.Configuration
import ContextLog.Proofs.Coercion
/-!
# What the environment seeds

Of all variables with the library's prefix two matter: the last one that sets the level and the last one
that sets the tracing (`Environment.get?_load`). The level is the one that the first names, and entries are
traced if the second stands for true or for a number other than zero (`defaults_seeded`). Nothing that
stands in the environment makes this fail.

A setting that means nothing is reported and ignored, with one exception: the words for nothing are
ignored without a report, as a level as well as an answer about tracing (`settings_reported`,
`level_unreported`).
-/

namespace ContextLog

open Text

namespace Environment

variable {name setting : String} {environment : Environment}

/-! ## The variables of a setting -/

/-- A variable sets a setting: its name is the library's prefix, an underscore, and the name of the setting
in some case of its letters. -/
def Sets (name setting : String) : Prop :=
  ∃ rest, name = settingsPrefix ++ "_" ++ rest ∧ lower rest = setting

theorem sets_iff : Sets name setting ↔ (settingsPrefix ++ "_").toList <+: name.toList ∧
    lower (String.ofList (name.toList.drop (settingsPrefix ++ "_").toList.length)) = setting := by
  constructor
  · rintro ⟨rest, rfl, hrest⟩
    rw [String.toList_append (s := settingsPrefix ++ "_"), List.drop_left, String.ofList_toList]
    exact ⟨List.prefix_append _ _, hrest⟩
  · rintro ⟨⟨rest, hname⟩, hrest⟩
    rw [← hname, List.drop_left] at hrest
    refine ⟨String.ofList rest, ?_, hrest⟩
    rw [← String.ofList_toList (s := name), ← hname, String.ofList_append, String.ofList_toList]

instance (name setting : String) : Decidable (Sets name setting) := decidable_of_iff _ sets_iff.symm

/-- The text of the last variable that sets a setting. -/
def last? (environment : Environment) (setting : String) : Option String :=
  ((environment.filter fun v => Sets v.1 setting).getLast?).map (·.2)

theorem last?_cons (v : String × String) (environment : Environment) (setting : String) :
    last? (v :: environment) setting =
      (last? environment setting).or (if Sets v.1 setting then some v.2 else none) := by
  unfold last?
  by_cases h : Sets v.1 setting
  · cases hrest : (environment.filter fun v => Sets v.1 setting).getLast? <;>
      simp [h, hrest, List.getLast?_cons]
  · simp [h]

/-- A variable is read as a setting if it sets one that has a name. -/
theorem settingName?_eq_some_iff (hs : setting ≠ "") :
    settingName? (withSeparator settingsPrefix.toList) name.toList = some setting ↔ Sets name setting := by
  have hsep : withSeparator settingsPrefix.toList = (settingsPrefix ++ "_").toList := by decide
  rw [sets_iff, hsep, settingName?]
  generalize (settingsPrefix ++ "_").toList = pre
  cases hpre : pre.isPrefixOf name.toList with
  | false =>
    rw [if_neg Bool.false_ne_true, ← List.isPrefixOf_iff_prefix, hpre]
    simp
  | true =>
    rw [if_pos rfl, ← List.isPrefixOf_iff_prefix, hpre]
    cases hrest : name.toList.drop pre.length with
    | nil =>
      have hempty : lower (String.ofList []) = "" := by decide
      rw [hempty]
      simp [Ne.symm hs]
    | cons c rest => simp

/-- The settings once another variable is read. -/
def readVariable (settings : Fields) (v : String × String) : Fields :=
  match settingName? (withSeparator settingsPrefix.toList) v.1.toList with
  | some key => settings.set (.str key) (coerce v.2)
  | none => settings

theorem load_eq_foldl (environment : Environment) :
    environment.load settingsPrefix = environment.foldl readVariable .empty := rfl

/-- A variable that sets a setting replaces its value, and any other one leaves it. -/
theorem get?_readVariable (settings : Fields) (v : String × String) (hs : setting ≠ "") :
    (readVariable settings v).get? (.str setting) =
      if Sets v.1 setting then some (coerce v.2) else settings.get? (.str setting) := by
  simp only [← settingName?_eq_some_iff hs]
  unfold readVariable
  cases hkey : settingName? (withSeparator settingsPrefix.toList) v.1.toList with
  | none => simp
  | some key =>
    have hsame : (Value.str key).SameKey (.str setting) ↔ some key = some setting := by
      simp [Value.SameKey, Value.str, Value.keyForm]
    dsimp only
    rw [Fields.get?_set]
    by_cases h : some key = some setting
    · rw [if_pos (hsame.2 h), if_pos h]
    · rw [if_neg (mt hsame.1 h), if_neg h]

/-- After some variables a setting has the value of the last one that sets it, else the one it had. -/
theorem get?_foldl_readVariable (environment : Environment) (settings : Fields) (hs : setting ≠ "") :
    (environment.foldl readVariable settings).get? (.str setting) =
      ((environment.last? setting).map coerce).or (settings.get? (.str setting)) := by
  induction environment generalizing settings with
  | nil => rfl
  | cons v environment ih =>
    rw [List.foldl_cons, ih, get?_readVariable settings v hs, last?_cons, Option.map_or, Option.or_assoc]
    congr 1
    by_cases h : Sets v.1 setting
    · rw [if_pos h, if_pos h]
      rfl
    · rw [if_neg h, if_neg h]
      rfl

/-- A setting has the value that the text of its last variable is read as. -/
theorem get?_load (environment : Environment) (hs : setting ≠ "") :
    (environment.load settingsPrefix).get? (.str setting) = (environment.last? setting).map coerce := by
  rw [load_eq_foldl, get?_foldl_readVariable environment .empty hs]
  exact Option.or_none

/-! ## Texts that matter -/

variable {text : String}

/-- A text that asks for tracing: it is read as true or as a number other than zero, such as a NaN. -/
def AsksForTracing (text : String) : Prop :=
  coerce text = .bool true ∨ (∃ n : Int, n ≠ 0 ∧ coerce text = .int n) ∨
    ∃ x : Binary64, x.isZero = false ∧ coerce text = .float x

/-- A text for the level that is reported: it names no level, and does not stand for nothing. -/
def IsStrayLevel (text : String) : Prop := Level.named? text = none ∧ ¬ MeansNothing text

instance (text : String) : Decidable (IsStrayLevel text) :=
  inferInstanceAs (Decidable (Level.named? text = none ∧ ¬ MeansNothing text))

/-- A text for the tracing that is reported: it stands neither for a truth value nor for a number, nor for
nothing. -/
def IsStrayAnswer (text : String) : Prop := ¬ MeansTruth text ∧ ¬ MeansNumber text ∧ ¬ MeansNothing text

instance (text : String) : Decidable (IsStrayAnswer text) :=
  inferInstanceAs (Decidable (¬ MeansTruth text ∧ ¬ MeansNumber text ∧ ¬ MeansNothing text))

theorem coerce_eq_none_iff : coerce text = .none ↔ MeansNothing text := by
  have hreading := reading_coerce text
  generalize coerce text = v at hreading
  cases hreading with
  | nothing h => exact ⟨fun _ => h, fun _ => rfl⟩
  | truth _ h | whole h | double _ h | itself h => exact ⟨nofun, fun hyes => absurd hyes h⟩

end Environment

/-! ## The two settings -/

namespace Defaults

open Environment

theorem seedLevel_of_shown {v : Value} {shown : String} (hv : v ≠ .none) (hs : v.shown = .ok shown)
    {word : Option Level} (hw : Level.ofWord? shown = word) :
    seedLevel (some v) =
      (word.getD .error, if word.isSome then [] else [.levelIgnored v ("invalid level: " ++ shown)]) := by
  unfold seedLevel
  split
  · contradiction
  · cases ‹some v = some Value.none›
    contradiction
  · cases ‹some v = some _›
    cases word <;> simp [hs, hw]

/-- The level is the one that the text names, and a stray text is reported. -/
theorem seedLevel_coerce {shown : String → String} (hs : ∀ text, (coerce text).shown = .ok (shown text))
    (setting : Option String) :
    seedLevel (setting.map coerce) =
      ((setting.bind Level.named?).getD .error,
        (setting.filter fun text => IsStrayLevel text).toList.map fun text =>
          .levelIgnored (coerce text) ("invalid level: " ++ shown text)) := by
  cases setting with
  | none => rfl
  | some text =>
    rw [Option.map_some, Option.bind_some]
    cases hl : Level.named? text with
    | some l =>
      have hstray : ¬ IsStrayLevel text := by simp [IsStrayLevel, hl]
      have hword : Level.ofWord? text = some l := (Level.ofWord?_eq_named? text).trans hl
      have hshown : (Value.str text).shown = .ok text := rfl
      have hsome : Value.str text ≠ .none := nofun
      rw [coerce_of_level hl, seedLevel_of_shown hsome hshown hword]
      simp [hstray]
    | none =>
      by_cases hn : MeansNothing text
      · have hstray : ¬ IsStrayLevel text := by simp [IsStrayLevel, hn]
        rw [coerce_eq_none_iff.2 hn]
        simp [seedLevel, hstray]
      · have hstray : (some text).filter (fun text => IsStrayLevel text) = some text :=
          Option.filter_some_pos (decide_eq_true (show IsStrayLevel text from ⟨hl, hn⟩))
        rw [seedLevel_of_shown (mt coerce_eq_none_iff.1 hn) (hs text) (ofWord?_shown_coerce hl (hs text)),
          hstray]
        simp

/-- Entries are traced if the text asks for it, and a stray text is reported. -/
theorem seedDebug_coerce (setting : Option String) :
    ((seedDebug (setting.map coerce)).1 = true ↔ ∃ text, setting = some text ∧ AsksForTracing text) ∧
      (seedDebug (setting.map coerce)).2 =
        (setting.filter fun text => IsStrayAnswer text).toList.map fun text => .debugIgnored (.str text) := by
  cases setting with
  | none => exact ⟨by simp [seedDebug], rfl⟩
  | some text =>
    have hasks : (∃ other, some text = some other ∧ AsksForTracing other) ↔ AsksForTracing text := by simp
    rw [hasks, Option.map_some]
    unfold AsksForTracing
    have hreading := reading_coerce text
    generalize coerce text = v at hreading
    cases hreading with
    | nothing h =>
      have hstray : ¬ IsStrayAnswer text := fun hs => hs.2.2 h
      simp [seedDebug, hstray]
    | truth b _ hb =>
      have hstray : ¬ IsStrayAnswer text := fun hs => hs.1 hb
      simp [seedDebug, Value.quantity?, Value.isTrue, hstray]
    | whole _ hn =>
      have hstray : ¬ IsStrayAnswer text := fun hs => hs.2.1 hn
      simp [seedDebug, Value.quantity?, Value.isTrue, hstray]
    | double x _ hx =>
      have hstray : ¬ IsStrayAnswer text := fun hs => hs.2.1 hx
      simp [seedDebug, Value.quantity?, Value.isTrue, hstray]
    | itself h ht hn =>
      have hstray : (some text).filter (fun text => IsStrayAnswer text) = some text :=
        Option.filter_some_pos (decide_eq_true (show IsStrayAnswer text from ⟨ht, hn, h⟩))
      rw [hstray]
      simp [seedDebug, Value.str, Value.quantity?]

/-- What the environment seeds, setting by setting. -/
theorem ofEnvironment_eq (environment : Environment) :
    ofEnvironment environment =
      let level := seedLevel ((environment.last? "level").map coerce)
      let debug := seedDebug ((environment.last? "debug").map coerce)
      ({ level := level.1, debug := .bool debug.1 }, level.2 ++ debug.2) := by
  unfold ofEnvironment
  dsimp only
  rw [get?_load environment (by decide), get?_load environment (by decide)]

/-! ## The law of seeding -/

/-- Defaults as an environment determines them. -/
structure SeededBy (d : Defaults) (environment : Environment) : Prop where
  appender : d.appender = none
  context : d.context = some .background
  /-- The level that the last text for it names, else errors. -/
  level : d.level = ((environment.last? "level").bind Level.named?).getD .error
  /-- Entries are traced exactly if the last text for it asks for that. -/
  debug : ∃ traced : Bool, d.debug = .bool traced ∧
    (traced = true ↔ ∃ text, environment.last? "debug" = some text ∧ AsksForTracing text)

end Defaults

theorem Environment.last?_filter {keeps : String × String → Bool} {setting : String}
    (environment : Environment) (h : ∀ v, Sets v.1 setting → keeps v = true) :
    last? (environment.filter keeps) setting = environment.last? setting := by
  unfold last?
  rw [List.filter_filter]
  congr 2
  refine List.filter_congr fun v _ => ?_
  by_cases hv : Sets v.1 setting
  · simp [hv, h v hv]
  · simp [hv]

open Environment

/-- Whatever the environment holds, the defaults are seeded from it without a failure: the setting for the
level can be shown, as it must be to be looked up. The appender is left out and the context is empty, the
level and the tracing are as the last texts for them say, and the variables of other names make no
difference, so environments with the same variables of the two names, in the same order, seed the same
defaults. -/
theorem defaults_seeded (environment : Environment) :
    (((environment.load settingsPrefix).get? (.str "level")).all (·.shown.isOk)) ∧
      (∀ s, resetDefaults environment s = .ok () { s with
        defaults := (Defaults.ofEnvironment environment).1
        journal := s.journal ++ (Defaults.ofEnvironment environment).2 }) ∧
      (Defaults.ofEnvironment environment).1.SeededBy environment ∧
      Defaults.ofEnvironment (environment.filter fun v => Sets v.1 "level" ∨ Sets v.1 "debug") =
        Defaults.ofEnvironment environment := by
  obtain ⟨shown, hshown⟩ := Classical.skolem.1 shown_coerce
  refine ⟨?_, fun s => rfl, ⟨?_, ?_, ?_, ?_⟩, ?_⟩
  · rw [get?_load environment (by decide)]
    cases environment.last? "level" with
    | none => rfl
    | some text =>
      rw [Option.map_some, Option.all_some, hshown]
      rfl
  all_goals rw [Defaults.ofEnvironment_eq]
  · rw [Defaults.seedLevel_coerce hshown]
  · exact ⟨_, rfl, (Defaults.seedDebug_coerce _).1⟩
  · rw [Defaults.ofEnvironment_eq, last?_filter, last?_filter]
    · intro v hv
      simp [hv]
    · intro v hv
      simp [hv]

/-! ## The law of the reports -/

/-- Seeding the defaults reports the last text for the level if it is stray, then the last text for the
tracing if that is stray, and nothing else. -/
theorem settings_reported (environment : Environment) :
    ∃ shown : String → String, (∀ text, (coerce text).shown = .ok (shown text)) ∧
      (Defaults.ofEnvironment environment).2 =
        (((environment.last? "level").filter fun text => IsStrayLevel text).toList.map fun text =>
          .levelIgnored (coerce text) ("invalid level: " ++ shown text)) ++
        (((environment.last? "debug").filter fun text => IsStrayAnswer text).toList.map fun text =>
          .debugIgnored (.str text)) := by
  obtain ⟨shown, hshown⟩ := Classical.skolem.1 shown_coerce
  refine ⟨shown, hshown, ?_⟩
  rw [Defaults.ofEnvironment_eq]
  dsimp only
  rw [Defaults.seedLevel_coerce hshown, (Defaults.seedDebug_coerce _).2]

/-- A word for nothing is no level, and is ignored without a report. -/
theorem level_unreported :
    last? [("LIB_CONTEXT_LOG_LEVEL", "none")] "level" = some "none" ∧ Level.named? "none" = none ∧
      (Defaults.ofEnvironment [("LIB_CONTEXT_LOG_LEVEL", "none")]).2 = [] := by
  refine ⟨by decide, ?_, ?_⟩
  · rw [← Level.ofWord?_eq_named?]
    decide
  · rw [Defaults.ofEnvironment_eq]
    rfl

end ContextLog
