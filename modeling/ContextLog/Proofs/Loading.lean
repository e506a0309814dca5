import ContextLog.Proofs.Coercion
import ContextLog.Proofs.Writes
/-!
# Settings and their variables

The settings under a prefix are those of the variables whose names start with it, one after the other
(`Environment.load_eq_ofList`), so no other variable matters. The prefix of a project name that does not end in a
separator gets its one separator, whether or not it is written with it. If such variables are made from settings, then
just these settings are read back, in their order (`Environment.settings_loaded`).
-/

namespace ContextLog.Environment

open Text

variable {slug pre name : String} {environment : Environment} {settings : List (String × String)}

/-! ## The variables of a prefix -/

/-- The variable belongs to a prefix: its name starts with the prefix and the separator. -/
def IsUnder (pre : String) (v : String × String) : Prop := (pre ++ "_").toList <+: v.1.toList

instance (pre : String) (v : String × String) : Decidable (IsUnder pre v) :=
  inferInstanceAs (Decidable ((pre ++ "_").toList <+: v.1.toList))

/-- The entry that a variable makes under a prefix. -/
def setting? (pre : List Char) (v : String × String) : Option (Value × Value) :=
  (settingName? pre v.1.toList).map fun key => (.str key, coerce v.2)

/-- The settings under a prefix are set one after the other. -/
theorem load_eq_ofList (environment : Environment) (pre : String) :
    environment.load pre = Fields.ofList (environment.filterMap (setting? (withSeparator pre.toList))) := by
  unfold load Fields.ofList
  dsimp only
  generalize Fields.empty = settings
  induction environment generalizing settings with
  | nil => rfl
  | cons v environment ih =>
    rw [List.foldl_cons, List.filterMap_cons]
    unfold setting?
    cases hkey : settingName? (withSeparator pre.toList) v.1.toList with
    | none => exact ih settings
    | some key => exact ih (settings.set (.str key) (coerce v.2))

theorem settingName?_append (pre : List Char) {rest : List Char} (h : rest ≠ []) :
    settingName? pre (pre ++ rest) = some (lower (String.ofList rest)) := by
  have hpre : pre.isPrefixOf (pre ++ rest) = true := List.isPrefixOf_iff_prefix.2 (List.prefix_append pre rest)
  unfold settingName?
  rw [if_pos hpre, List.drop_left]
  cases rest with
  | nil => contradiction
  | cons c rest => rfl

/-! ## The prefix of a project name -/

/-- The project name does not end in a separator. -/
def IsOpen (slug : String) : Prop :=
  slug ≠ "" ∧ slug.toList.getLast? ≠ some '-' ∧ slug.toList.getLast? ≠ some '_'

theorem withSeparator_of_open {cs : List Char} (h : cs ≠ []) (hlast : cs.getLast? ≠ some '_') :
    withSeparator cs = cs ++ ['_'] := if_neg (not_or.2 ⟨h, hlast⟩)

theorem withSeparator_of_closed (cs : List Char) : withSeparator (cs ++ ['_']) = cs ++ ['_'] :=
  if_pos (.inr (by simp))

/-- Its prefix does not end in a separator either. -/
theorem withSeparator_prefixFor (h : IsOpen slug) :
    withSeparator (prefixFor slug).toList = (prefixFor slug).toList ++ ['_'] := by
  obtain ⟨hne, hhyphen, hscore⟩ := h
  have hslug : slug.toList ≠ [] := fun hnil => hne (String.toList_eq_nil_iff.1 hnil)
  apply withSeparator_of_open
  · obtain ⟨c, rest, hcs⟩ := List.exists_cons_of_ne_nil hslug
    simp [prefixFor, upper, hcs, upperChar_ne_nil]
  · apply getLast?_upper_ne
    rw [String.toList_ofList, List.getLast?_map]
    intro hlast
    obtain ⟨c, hc, hunder⟩ := Option.map_eq_some_iff.1 hlast
    split at hunder
    · exact hhyphen (by rw [hc, ‹c = '-'›])
    · exact hscore (by rw [hc, hunder])

theorem load_separated (h : IsOpen slug) (environment : Environment) :
    environment.load (prefixFor slug ++ "_") = environment.load (prefixFor slug) := by
  rw [load_eq_ofList, load_eq_ofList, withSeparator_prefixFor h, String.toList_append]
  exact congrArg (fun pre => Fields.ofList (environment.filterMap (setting? pre))) (withSeparator_of_closed _)

theorem setting?_of_not_isUnder {v : String × String} (h : ¬ IsUnder pre v) :
    setting? (pre.toList ++ ['_']) v = none := by
  have hpre : (pre.toList ++ ['_']).isPrefixOf v.1.toList = false := by
    rw [← Bool.not_eq_true, List.isPrefixOf_iff_prefix]
    simpa [IsUnder] using h
  rw [setting?, settingName?, hpre]
  rfl

/-- Only the variables of the prefix matter. -/
theorem load_filter (h : IsOpen slug) (environment : Environment) :
    Environment.load (environment.filter fun v => IsUnder (prefixFor slug) v) (prefixFor slug) =
      environment.load (prefixFor slug) := by
  rw [load_eq_ofList, load_eq_ofList, List.filterMap_filter, withSeparator_prefixFor h]
  generalize prefixFor slug = pre
  have hsame : (fun v => if decide (IsUnder pre v) then setting? (pre.toList ++ ['_']) v else none) =
      setting? (pre.toList ++ ['_']) := by
    funext v
    by_cases hv : IsUnder pre v
    · rw [if_pos (decide_eq_true hv)]
    · rw [if_neg (mt of_decide_eq_true hv), setting?_of_not_isUnder hv]
  rw [hsame]

/-! ## Variables made from settings -/

/-- A name of a setting: small seven-bit letters, digits and underscores. -/
def IsSettingName (name : String) : Prop := name ≠ "" ∧ ∀ c ∈ name.toList, c.isLower ∨ c.isDigit ∨ c = '_'

instance (name : String) : Decidable (IsSettingName name) :=
  @instDecidableAnd _ _ inferInstance (List.decidableBAll _ name.toList)

/-- The variable that holds a setting. -/
def ofSetting (pre : String) (v : String × String) : String × String := (pre ++ "_" ++ upper v.1, v.2)

theorem isSettingName_bounds {c : Char} (h : c.isLower ∨ c.isDigit ∨ c = '_') :
    (97 ≤ c.toNat ∧ c.toNat ≤ 122) ∨ (48 ≤ c.toNat ∧ c.toNat ≤ 57) ∨ c.toNat = 95 := by
  rcases h with h | h | rfl
  · exact .inl (isLower_iff.1 h)
  · exact .inr (.inl (isDigit_iff.1 h))
  · exact .inr (.inr rfl)

theorem toLower_toUpper {c : Char} (h : c.isLower ∨ c.isDigit ∨ c = '_') : c.toUpper.toLower = c := by
  have hbounds := isSettingName_bounds h
  apply Char.toNat_inj.1
  rw [toNat_toLower, toNat_toUpper]
  split <;> split <;> omega

/-- The name of a setting is read back from its capital form. -/
theorem lower_upper (h : IsSettingName name) : lower (upper name) = name := by
  have hname : ∀ c ∈ name.toList, c.toNat < 0x80 := fun c hc => by
    have hbounds := isSettingName_bounds (h.2 c hc)
    omega
  have hupper : (upper name).toList = name.toList.map Char.toUpper := toList_upper_of_sevenBit hname
  have hseven : ∀ c ∈ (upper name).toList, c.toNat < 0x80 := by
    intro c hc
    rw [hupper] at hc
    obtain ⟨d, hd, rfl⟩ := List.mem_map.1 hc
    have hd := hname d hd
    rw [toNat_toUpper]
    split <;> omega
  have hlower : (name.toList.map Char.toUpper).map Char.toLower = name.toList := by
    rw [List.map_map]
    exact (List.map_congr_left fun c hc => toLower_toUpper (h.2 c hc)).trans (List.map_id _)
  rw [lower_of_sevenBit hseven, ← String.toList_inj, toList_toLower, hupper, hlower]

theorem setting?_ofSetting (pre : String) {v : String × String} (h : IsSettingName v.1) :
    setting? (pre.toList ++ ['_']) (ofSetting pre v) = some (.str v.1, coerce v.2) := by
  have hne : (upper v.1).toList ≠ [] := by
    intro hnil
    have hlower := lower_upper h
    rw [String.toList_eq_nil_iff.1 hnil] at hlower
    exact h.1 hlower.symm
  have hname : (ofSetting pre v).1.toList = (pre.toList ++ ['_']) ++ (upper v.1).toList := by
    simp [ofSetting]
  rw [setting?, hname, settingName?_append _ hne, String.ofList_toList, lower_upper h]
  rfl

/-- Settings of different names are read back as they are. -/
theorem entries_ofList_settings (h : (settings.map (·.1)).Nodup) :
    (Fields.ofList (settings.map fun v => (.str v.1, coerce v.2))).entries =
      settings.map fun v => (.str v.1, coerce v.2) := by
  have hforms : entryForms (settings.map fun v => (Value.str v.1, coerce v.2)) =
      (settings.map (·.1)).map fun name => [.text name] := by
    simp [entryForms, Function.comp_def, Value.str, Value.keyForm]
  have hnodup : (entryForms (settings.map fun v => (Value.str v.1, coerce v.2))).Nodup := by
    rw [hforms]
    refine List.Pairwise.map _ (fun a b hne hab => hne ?_) h
    simpa using hab
  exact Fields.entries_setAll hnodup

/-! ## The law of loading -/

/-- What is loaded from an environment under a prefix. -/
structure LoadsUnder (pre : String) (environment : Environment) : Prop where
  /-- If the variables of the prefix are those of some settings of different names, whatever other variables stand
  between them, then just these settings are loaded, in the order of their variables, each as its text is read. -/
  settings : ∀ settings : List (String × String), (∀ v ∈ settings, IsSettingName v.1) →
    (settings.map (·.1)).Nodup → environment.filter (fun v => IsUnder pre v) = settings.map (ofSetting pre) →
    (environment.load pre).entries = settings.map fun v => (.str v.1, coerce v.2)
  /-- The prefix may be written with its separator. -/
  separated : environment.load (pre ++ "_") = environment.load pre
  /-- An environment with the same variables of the prefix, in the same order, holds the same settings, however the two
  differ in all other variables. -/
  unaffected : ∀ other : Environment,
    other.filter (fun v => IsUnder pre v) = environment.filter (fun v => IsUnder pre v) →
    other.load pre = environment.load pre

/-- The settings of a project are read back from their variables, and no other variables matter. -/
theorem settings_loaded (h : IsOpen slug) (environment : Environment) : LoadsUnder (prefixFor slug) environment where
  settings settings hnames hnodup hvariables := by
    have hread : (settings.map (ofSetting (prefixFor slug))).filterMap
        (setting? ((prefixFor slug).toList ++ ['_'])) = settings.map fun v => (.str v.1, coerce v.2) := by
      clear hnodup hvariables
      induction settings with
      | nil => rfl
      | cons v settings ih =>
        obtain ⟨hname, hnames⟩ := List.forall_mem_cons.1 hnames
        rw [List.map_cons, List.filterMap_cons, setting?_ofSetting _ hname, ih hnames]
        rfl
    rw [← load_filter h, hvariables, load_eq_ofList, withSeparator_prefixFor h, hread]
    exact entries_ofList_settings hnodup
  separated := load_separated h environment
  unaffected other hother := by rw [← load_filter h other, hother, load_filter h]

/-- Variables of a project among others, one of which is no variable of it though its name starts like one. -/
def mixedVariables : Environment :=
  [("HOME", "/root"), ("MY_APP_LEVEL", "debug"), ("MY_APPS", "1"), ("MY_APP__RETRIES", "3")]

/-- The two settings are read back, one as its text and one as a number. -/
theorem settings_loaded_mixedVariables : IsOpen "my-app" ∧
    (mixedVariables.load (prefixFor "my-app")).entries =
      [(.str "level", .str "debug"), (.str "_retries", .int 3)] := by
  have hopen : IsOpen "my-app" := by
    unfold IsOpen
    decide
  have hvariables : mixedVariables.filter (fun v => IsUnder (prefixFor "my-app") v) =
      [("level", "debug"), ("_retries", "3")].map (ofSetting (prefixFor "my-app")) := by decide
  refine ⟨hopen, ?_⟩
  rw [(settings_loaded hopen mixedVariables).settings [("level", "debug"), ("_retries", "3")] ?_ (by decide) hvariables]
  · rfl
  · exact List.forall_mem_cons.2 ⟨by decide, List.forall_mem_cons.2 ⟨by decide, nofun⟩⟩

end ContextLog.Environment
