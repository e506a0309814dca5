import ContextLog.Environment
import ContextLog.Level.Coerce
import ContextLog.Proofs.LetterCase
/-!
# What the texts of the environment stand for

A text of the environment is read as a truth value, as nothing, as a number, or else stays a text
(`Environment.coerce`). Whatever it is read as can be shown (`Environment.shown_coerce`), since a whole
number is not read from more digits than are written. The reading does not get in the way of levels: a
text that names a level in some case of its letters stays what it is (`Environment.coerce_of_level`), and
what any other text is read as is not shown as a word for a level (`Environment.ofWord?_shown_coerce`).
-/

namespace ContextLog

open Text

/-! ## Letters and digits -/

namespace Text

theorem isUpper_iff {c : Char} : c.isUpper = true ↔ 65 ≤ c.toNat ∧ c.toNat ≤ 90 := decide_eq_true_iff

theorem isLower_iff {c : Char} : c.isLower = true ↔ 97 ≤ c.toNat ∧ c.toNat ≤ 122 := by
  show (decide ('a'.val ≤ c.val) && decide (c.val ≤ 'z'.val)) = true ↔ _
  rw [Bool.and_eq_true, decide_eq_true_iff, decide_eq_true_iff]
  exact .rfl

theorem isAlpha_iff {c : Char} :
    c.isAlpha = true ↔ (65 ≤ c.toNat ∧ c.toNat ≤ 90) ∨ (97 ≤ c.toNat ∧ c.toNat ≤ 122) := by
  show (c.isUpper || c.isLower) = true ↔ _
  rw [Bool.or_eq_true, isUpper_iff, isLower_iff]

theorem isDigit_iff {c : Char} : c.isDigit = true ↔ 48 ≤ c.toNat ∧ c.toNat ≤ 57 := by
  show (decide ('0'.val ≤ c.val) && decide (c.val ≤ '9'.val)) = true ↔ _
  rw [Bool.and_eq_true, decide_eq_true_iff, decide_eq_true_iff]
  exact .rfl

theorem not_isDigit_of_isAlpha {c : Char} (h : c.isAlpha) : c.isDigit = false := by
  rw [isAlpha_iff] at h
  refine Bool.eq_false_iff.2 fun hd => ?_
  rw [isDigit_iff] at hd
  omega

/-- Of the seven-bit characters only the plain digits count as digits. -/
theorem isDigitLike_of_lt {c : Char} (h : c.toNat < 0x80) : isDigitLike c = c.isDigit := by
  have hzeros : ∀ z ∈ zeros, 0x80 ≤ z := by decide
  have hothers : ∀ r ∈ otherDigits.ranges, 0x80 ≤ r.1 := by decide
  have hother : otherDigits.contains c = false := by
    refine Bool.eq_false_iff.2 fun hc => ?_
    obtain ⟨r, hr, hlow, -⟩ := (otherDigits.contains_iff c).1 hc
    have hwide := hothers r hr
    omega
  unfold isDigitLike decimalValue?
  rw [hother, Bool.or_false]
  cases c.isDigit with
  | true => rfl
  | false =>
    have hnone : zeros.find? (fun z => z ≤ c.toNat && c.toNat < z + 10) = none := by
      rw [List.find?_eq_none]
      intro z hz hin
      have hwide := hzeros z hz
      simp at hin
      omega
    rw [if_neg Bool.false_ne_true, hnone]
    rfl

end Text

/-! ## Words of letters -/

namespace Decimal

variable {cs : List Char}

theorem plainForm_of_isAlpha (h : ∀ c ∈ cs, c.isAlpha) : plainForm cs = cs := by
  unfold plainForm
  rw [if_pos]
  rw [List.all_eq_true]
  intro c hc
  have halpha := isAlpha_iff.1 (h c hc)
  simp
  omega

theorem trimBlanks_of_isAlpha (h : ∀ c ∈ cs, c.isAlpha) : trimBlanks cs = cs := by
  have hblank : ∀ c ∈ cs, ¬ isAsciiBlank c = true := by
    intro c hc hb
    have halpha := isAlpha_iff.1 (h c hc)
    unfold isAsciiBlank at hb
    simp only [Bool.or_eq_true, Bool.and_eq_true, decide_eq_true_eq] at hb
    rcases hb with rfl | hb
    · exact absurd halpha (by decide)
    · omega
  have hdrop : ∀ ds : List Char, (∀ c ∈ ds, ¬ isAsciiBlank c = true) → ds.dropWhile isAsciiBlank = ds := by
    intro ds hds
    cases ds with
    | nil => rfl
    | cons d ds => exact List.dropWhile_cons_of_neg (hds d List.mem_cons_self)
  unfold trimBlanks
  rw [hdrop cs hblank, hdrop cs.reverse fun c hc => hblank c (List.mem_reverse.1 hc), List.reverse_reverse]

theorem dropUnderscores_of_isAlpha (previous : Bool) (h : ∀ c ∈ cs, c.isAlpha) :
    dropUnderscores previous cs = some cs := by
  induction cs generalizing previous with
  | nil => rfl
  | cons c rest ih =>
    obtain ⟨hc, hrest⟩ := List.forall_mem_cons.1 h
    have hscore : c ≠ '_' := by
      rintro rfl
      cases hc
    rw [dropUnderscores.eq_def]
    split
    · rename_i heq
      cases heq
    · rename_i heq
      cases heq
      exact absurd rfl hscore
    · rename_i heq
      cases heq
      rw [ih _ hrest]
      rfl

theorem readSign_of_isAlpha {c : Char} (hc : c.isAlpha) (rest : List Char) :
    readSign (c :: rest) = (false, c :: rest) := by
  unfold readSign
  split
  · rename_i heq
    cases heq
    cases hc
  · rename_i heq
    cases heq
    cases hc
  · rfl

theorem readMagnitude_of_isAlpha {c : Char} (hc : c.isAlpha) {rest : List Char} {word : String}
    (hword : String.ofList ((c :: rest).map Char.toLower) = word)
    (hw : word ≠ "inf" ∧ word ≠ "infinity" ∧ word ≠ "nan") : readMagnitude false (c :: rest) = none := by
  have hdigit : ¬ c.isDigit = true := by
    rw [not_isDigit_of_isAlpha hc]
    exact Bool.false_ne_true
  have hpoint : c ≠ '.' := by
    rintro rfl
    cases hc
  unfold readMagnitude
  rw [hword, if_neg (not_or.2 ⟨hw.1, hw.2.1⟩), if_neg hw.2.2, List.takeWhile_cons_of_neg hdigit,
    List.dropWhile_cons_of_neg hdigit]
  dsimp only
  split
  · rename_i places rest' heq
    cases heq
    exact absurd rfl hpoint
  · rfl

/-- A word of letters writes no number, but for three words. -/
theorem readDouble_of_isAlpha {s : String} (hs : s ≠ "") (h : ∀ c ∈ s.toList, c.isAlpha)
    (hw : s.toLower ≠ "inf" ∧ s.toLower ≠ "infinity" ∧ s.toLower ≠ "nan") : readDouble s = none := by
  have hword : String.ofList (s.toList.map Char.toLower) = s.toLower := by
    rw [← toList_toLower, String.ofList_toList]
  unfold readDouble
  rw [plainForm_of_isAlpha h, trimBlanks_of_isAlpha h, dropUnderscores_of_isAlpha false h]
  cases hcs : s.toList with
  | nil => exact absurd (String.toList_eq_nil_iff.1 hcs) hs
  | cons c rest =>
    rw [hcs] at h hword
    have hc : c.isAlpha := h c List.mem_cons_self
    show readMagnitude (readSign (c :: rest)).1 (readSign (c :: rest)).2 = none
    rw [readSign_of_isAlpha hc]
    exact readMagnitude_of_isAlpha hc hword hw

end Decimal

/-! ## Numbers that are read can be written -/

namespace Decimal

theorem ofDigitChars_lt {cs : List Char} (h : ∀ c ∈ cs, c.isDigit) (n k : Nat) (hn : n < tenTo k) :
    Nat.ofDigitChars 10 cs n < tenTo (k + cs.length) := by
  induction cs generalizing n k with
  | nil => exact hn
  | cons c rest ih =>
    obtain ⟨hc, hrest⟩ := List.forall_mem_cons.1 h
    have hdigit := isDigit_iff.1 hc
    have hzero : '0'.toNat = 48 := rfl
    have hten : tenTo (k + 1) = tenTo k * 10 := rfl
    have hnext := ih hrest (10 * n + (c.toNat - '0'.toNat)) (k + 1) (by omega)
    rw [List.length_cons, show k + (rest.length + 1) = k + 1 + rest.length by omega]
    exact hnext

theorem isDigit_of_decimalValue? {c : Char} {d : Nat} (h : decimalValue? c = some d) :
    (Nat.digitChar d).isDigit = true := by
  have hd : d < 10 := by
    unfold decimalValue? at h
    split at h
    · rename_i hc
      have hdigit := isDigit_iff.1 hc
      have hzero : '0'.toNat = 48 := rfl
      cases h
      omega
    · cases hz : zeros.find? (fun z => z ≤ c.toNat && c.toNat < z + 10) with
      | none => rw [hz] at h; cases h
      | some z =>
        rw [hz] at h
        have hin := List.find?_some hz
        simp at hin
        have hd : c.toNat - z = d := by simpa using h
        omega
  rw [Nat.isDigit_digitChar]
  exact decide_eq_true hd

theorem isDigit_of_plainDigits {cs ds : List Char} (h : plainDigits cs = some ds) :
    ∀ d ∈ ds, d.isDigit := by
  unfold plainDigits at h
  induction cs generalizing ds with
  | nil => cases h; nofun
  | cons c rest ih =>
    rw [List.mapM_cons] at h
    cases hc : decimalValue? c with
    | none => rw [hc] at h; cases h
    | some d =>
      cases hrest : rest.mapM fun c => (decimalValue? c).map Nat.digitChar with
      | none => rw [hc, hrest] at h; cases h
      | some ds' =>
        rw [hc, hrest] at h
        cases h
        exact List.forall_mem_cons.2 ⟨isDigit_of_decimalValue? hc, ih hrest⟩

/-- A whole number that is read has no more digits than are written. -/
theorem length_toDigits_of_readNatural {cs : List Char} {n : Nat} (h : readNatural cs = some n) :
    (Nat.toDigits 10 n).length ≤ digitLimit := by
  unfold readNatural at h
  cases hds : plainDigits cs with
  | none => rw [hds] at h; cases h
  | some ds =>
    rw [hds] at h
    dsimp only [bind, Option.bind] at h
    split at h
    · cases h
    · rename_i hlen
      cases h
      have hlt : Nat.ofDigitChars 10 ds 0 < tenTo (0 + ds.length) :=
        ofDigitChars_lt (isDigit_of_plainDigits hds) 0 0 (by decide)
      have hlimit : 0 < digitLimit := by decide
      generalize digitLimit = limit at hlen hlimit ⊢
      rw [Nat.length_toDigits_le_iff (by decide) hlimit]
      exact Nat.lt_of_lt_of_le hlt (Nat.pow_le_pow_right (by decide) (by omega))

/-- A whole number is read from the digits behind its sign. -/
theorem readNatural_of_readWhole {cs : List Char} {n : Int} (h : readWhole cs = some n) :
    ∃ ds, readNatural ds = some n.natAbs := by
  unfold readWhole at h
  split at h
  · rename_i rest
    cases hn : readNatural rest with
    | none => rw [hn] at h; cases h
    | some m =>
      rw [hn] at h
      cases h
      exact ⟨rest, by rw [hn, Int.natAbs_neg, Int.natAbs_natCast]⟩
  · cases hn : readNatural cs with
    | none => rw [hn] at h; cases h
    | some m =>
      rw [hn] at h
      cases h
      exact ⟨cs, by rw [hn, Int.natAbs_natCast]⟩

end Decimal

theorem shown_of_readWhole {cs : List Char} {n : Int} (h : Decimal.readWhole cs = some n) :
    ∃ text, (Value.int n).shown = .ok text ∧ ∃ c ∈ text.toList, ¬ c.isAlpha := by
  obtain ⟨ds, hds⟩ := Decimal.readNatural_of_readWhole h
  have hlength : (Nat.toDigits 10 n.natAbs).length ≤ Decimal.digitLimit :=
    Decimal.length_toDigits_of_readNatural hds
  refine ⟨(if n < 0 then "-" else "") ++ String.ofList (Nat.toDigits 10 n.natAbs), ?_, ?_⟩
  · show wholeText n = _
    unfold wholeText
    dsimp only
    rw [if_neg (Nat.not_lt.2 hlength)]
  · obtain ⟨c, hc⟩ := List.exists_mem_of_ne_nil _ (Nat.toDigits_ne_nil (n := n.natAbs) (b := 10))
    refine ⟨c, ?_, fun halpha => ?_⟩
    · simp [hc]
    · have hdigit : c.isDigit = true := Nat.isDigit_of_mem_toDigits (by decide) (by decide) hc
      rw [not_isDigit_of_isAlpha halpha] at hdigit
      cases hdigit

/-- An exponent is written with a sign. -/
theorem Binary64.exists_mem_exponentText (e : Int) : ∃ c ∈ (exponentText e).toList, ¬ c.isAlpha := by
  unfold exponentText
  by_cases h : e < 0
  · rw [if_pos h]
    exact ⟨'-', by simp, by decide⟩
  · rw [if_neg h]
    exact ⟨'+', by simp, by decide⟩

/-- A number is written with a sign or a point. -/
theorem Binary64.exists_mem_text (s : Bool) (m : Nat) (e : Int) :
    ∃ c ∈ (Binary64.finite s m e).text.toList, ¬ c.isAlpha := by
  have hmagnitude : ∀ x : Binary64.Scientific, ∃ c ∈ x.text.toList, ¬ c.isAlpha := by
    intro x
    unfold Scientific.text
    dsimp only
    split
    · split
      · exact ⟨'.', by simp, by decide⟩
      · split
        · exact ⟨'.', by simp, by decide⟩
        · exact ⟨'.', by simp, by decide⟩
    · obtain ⟨c, hc, halpha⟩ := exists_mem_exponentText
        ((Nat.toDigits 10 x.strip.digits).length + x.strip.exponent - 1)
      exact ⟨c, by simp [hc], halpha⟩
  have hpositive : ∃ c ∈ (if m = 0 then "0.0" else (shortest m e).text).toList, ¬ c.isAlpha := by
    split
    · exact ⟨'.', by decide, by decide⟩
    · exact hmagnitude _
  unfold text
  dsimp only
  split
  · exact ⟨'-', by simp, by decide⟩
  · exact hpositive

/-! ## Texts that name a level -/

namespace Level

variable {text : String} {l : Level}

/-- The level that a text names in some case of its seven-bit letters. -/
def named? (text : String) : Option Level := words.lookup text.toLower

/-- The words for levels are of small letters, without `k`. -/
theorem words_letters : ∀ e ∈ words, IsPlainWord e.1 ∧ e.1 ≠ "" ∧ e.1.toList.all Char.isLower := by
  decide

theorem ofWord?_eq_named? (text : String) : ofWord? text = named? text := by
  have hkeys : ∀ e ∈ words, lower text = e.1 ↔ text.toLower = e.1 := fun e he =>
    lower_eq_iff (words_letters e he).1 text
  unfold ofWord? named?
  generalize words = es at hkeys
  induction es with
  | nil => rfl
  | cons e es ih =>
    obtain ⟨hkey, hrest⟩ := List.forall_mem_cons.1 hkeys
    have heq : (lower text == e.1) = (text.toLower == e.1) := by
      rw [Bool.eq_iff_iff, beq_iff_eq, beq_iff_eq]
      exact hkey
    rw [List.lookup_cons, List.lookup_cons, heq, ih hrest]

theorem mem_words_of_named? (h : named? text = some l) : (text.toLower, l) ∈ words := by
  obtain ⟨before, after, hwords, -⟩ := List.lookup_eq_some_iff.1 h
  rw [hwords]
  simp

/-- A text that names a level is a word of letters. -/
theorem isAlpha_of_named? (h : named? text = some l) : text ≠ "" ∧ ∀ c ∈ text.toList, c.isAlpha := by
  obtain ⟨-, hne, hlower⟩ := words_letters _ (mem_words_of_named? h)
  refine ⟨fun he => hne ?_, fun c hc => ?_⟩
  · refine String.toList_eq_nil_iff.1 ?_
    rw [toList_toLower, he]
    rfl
  · have hmem : c.toLower ∈ text.toLower.toList := by
      rw [toList_toLower]
      exact List.mem_map_of_mem hc
    have hsmall : 97 ≤ c.toLower.toNat ∧ c.toLower.toNat ≤ 122 :=
      isLower_iff.1 (List.all_eq_true.1 hlower _ hmem)
    rw [toNat_toLower] at hsmall
    rw [isAlpha_iff]
    split at hsmall <;> omega

theorem ofWord?_eq_none {c : Char} (hc : c ∈ text.toList) (h : ¬ c.isAlpha) : ofWord? text = none := by
  rw [ofWord?_eq_named?]
  cases hn : named? text with
  | none => rfl
  | some l => exact absurd ((isAlpha_of_named? hn).2 c hc) h

end Level

/-! ## What a text is read as -/

namespace Environment

variable {text : String}

/-- A text that stands for nothing. -/
def MeansNothing (text : String) : Prop := text.toLower = "null" ∨ text.toLower = "none"

instance (text : String) : Decidable (MeansNothing text) :=
  inferInstanceAs (Decidable (text.toLower = "null" ∨ text.toLower = "none"))

/-- A text that stands for a truth value. -/
def MeansTruth (text : String) : Prop := text.toLower = "true" ∨ text.toLower = "false"

instance (text : String) : Decidable (MeansTruth text) :=
  inferInstanceAs (Decidable (text.toLower = "true" ∨ text.toLower = "false"))

/-- A text that stands for a number: a whole one if it looks like one, else a double. -/
def MeansNumber (text : String) : Prop :=
  if looksWhole text.toList then (Decimal.readWhole text.toList).isSome
  else (Decimal.readDouble text).isSome

instance (text : String) : Decidable (MeansNumber text) :=
  inferInstanceAs (Decidable (if looksWhole text.toList then (Decimal.readWhole text.toList).isSome
    else (Decimal.readDouble text).isSome))

/-- What a text is read as. -/
inductive Reading (text : String) : Value → Prop
  | nothing (h : MeansNothing text) : Reading text .none
  | truth (b : Bool) (h : ¬ MeansNothing text) (hb : MeansTruth text) : Reading text (.bool b)
  | whole {n : Int} (h : ¬ MeansNothing text) (hn : MeansNumber text)
      (hread : Decimal.readWhole text.toList = some n) : Reading text (.int n)
  | double (x : Binary64) (h : ¬ MeansNothing text) (hx : MeansNumber text) : Reading text (.float x)
  | itself (h : ¬ MeansNothing text) (ht : ¬ MeansTruth text) (hn : ¬ MeansNumber text) :
      Reading text (.str text)

theorem lower_eq_word_iff {w : String} (hw : w ∈ ["true", "false", "null", "none"]) (text : String) :
    lower text = w ↔ text.toLower = w := by
  have hplain : ∀ w ∈ ["true", "false", "null", "none"], IsPlainWord w := by decide
  exact lower_eq_iff (hplain w hw) text

/-- A text that is none of the words is read as a number, or stays what it is. -/
theorem coerce_of_not_word (h : ∀ w ∈ ["true", "false", "null", "none"], lower text ≠ w) :
    coerce text = if looksWhole text.toList then
      match Decimal.readWhole text.toList with
      | some n => .int n
      | none => .str text
    else
      match Decimal.readDouble text with
      | some x => .float x
      | none => .str text := by
  simp only [List.forall_mem_cons] at h
  obtain ⟨htrue, hfalse, hnull, hnone, -⟩ := h
  unfold coerce
  dsimp only
  exact (if_neg htrue).trans ((if_neg hfalse).trans (if_neg (not_or.2 ⟨hnull, hnone⟩)))

theorem reading_whole (h : ¬ MeansNothing text) (ht : ¬ MeansTruth text) (hl : looksWhole text.toList) :
    Reading text (match Decimal.readWhole text.toList with
      | some n => .int n
      | none => .str text) := by
  have hnumber : MeansNumber text ↔ (Decimal.readWhole text.toList).isSome := by
    unfold MeansNumber
    rw [if_pos hl]
  cases hn : Decimal.readWhole text.toList with
  | none =>
    refine .itself h ht ?_
    rw [hnumber, hn]
    exact Bool.false_ne_true
  | some n =>
    refine .whole h ?_ hn
    rw [hnumber, hn]
    rfl

theorem reading_double (h : ¬ MeansNothing text) (ht : ¬ MeansTruth text) (hl : ¬ looksWhole text.toList) :
    Reading text (match Decimal.readDouble text with
      | some x => .float x
      | none => .str text) := by
  have hnumber : MeansNumber text ↔ (Decimal.readDouble text).isSome := by
    unfold MeansNumber
    rw [if_neg hl]
  cases hx : Decimal.readDouble text with
  | none =>
    refine .itself h ht ?_
    rw [hnumber, hx]
    exact Bool.false_ne_true
  | some x =>
    refine .double x h ?_
    rw [hnumber, hx]
    rfl

theorem reading_coerce (text : String) : Reading text (coerce text) := by
  have htrueWord : lower text = "true" ↔ text.toLower = "true" := lower_eq_word_iff (by simp) text
  have hfalseWord : lower text = "false" ↔ text.toLower = "false" := lower_eq_word_iff (by simp) text
  have hnothing : (lower text = "null" ∨ lower text = "none") ↔ MeansNothing text :=
    or_congr (lower_eq_word_iff (by simp) text) (lower_eq_word_iff (by simp) text)
  have hother : MeansTruth text → ¬ MeansNothing text := by
    rintro (h | h) <;> unfold MeansNothing <;> rw [h] <;> decide
  unfold coerce
  simp only [hnothing, htrueWord, hfalseWord]
  by_cases htrue : text.toLower = "true"
  · rw [if_pos htrue]
    exact .truth true (hother (.inl htrue)) (.inl htrue)
  rw [if_neg htrue]
  by_cases hfalse : text.toLower = "false"
  · rw [if_pos hfalse]
    exact .truth false (hother (.inr hfalse)) (.inr hfalse)
  rw [if_neg hfalse]
  by_cases hnone : MeansNothing text
  · rw [if_pos hnone]
    exact .nothing hnone
  rw [if_neg hnone]
  have htruth : ¬ MeansTruth text := not_or.2 ⟨htrue, hfalse⟩
  by_cases hwhole : looksWhole text.toList
  · rw [if_pos hwhole]
    exact reading_whole hnone htruth hwhole
  · rw [if_neg hwhole]
    exact reading_double hnone htruth hwhole

/-- Whatever a text is read as can be shown. -/
theorem shown_coerce (text : String) : ∃ shown, (coerce text).shown = .ok shown := by
  have hreading := reading_coerce text
  generalize coerce text = v at hreading
  cases hreading with
  | whole _ _ hread =>
    obtain ⟨shown, hshown, -⟩ := shown_of_readWhole hread
    exact ⟨shown, hshown⟩
  | _ => exact ⟨_, rfl⟩

theorem not_looksWhole_of_isAlpha {cs : List Char} (h : ∀ c ∈ cs, c.isAlpha) : ¬ looksWhole cs := by
  unfold looksWhole
  split
  · exact absurd (h '-' List.mem_cons_self) (by decide)
  · cases cs with
    | nil => exact Bool.false_ne_true
    | cons c rest =>
      have hc : c.isAlpha := h c List.mem_cons_self
      have halpha := isAlpha_iff.1 hc
      unfold isDigits
      rw [List.all_cons, isDigitLike_of_lt (by omega), not_isDigit_of_isAlpha hc]
      exact Bool.false_ne_true

/-- A text that names a level stays what it is. -/
theorem coerce_of_level {l : Level} (h : Level.named? text = some l) : coerce text = .str text := by
  obtain ⟨hne, halpha⟩ := Level.isAlpha_of_named? h
  have hword := Level.mem_words_of_named? h
  have hscalar : ∀ w ∈ ["true", "false", "null", "none"], lower text ≠ w := by
    have hwords : ∀ e ∈ Level.words, ∀ w ∈ ["true", "false", "null", "none"], e.1 ≠ w := by decide
    exact fun w hw => mt (lower_eq_word_iff hw text).1 (hwords _ hword w hw)
  have hnumber : text.toLower ≠ "inf" ∧ text.toLower ≠ "infinity" ∧ text.toLower ≠ "nan" := by
    have hwords : ∀ e ∈ Level.words, e.1 ≠ "inf" ∧ e.1 ≠ "infinity" ∧ e.1 ≠ "nan" := by decide
    exact hwords _ hword
  have hwhole : ¬ looksWhole text.toList := not_looksWhole_of_isAlpha halpha
  rw [coerce_of_not_word hscalar, if_neg hwhole, Decimal.readDouble_of_isAlpha hne halpha hnumber]

/-- What a text that names no level is read as is not shown as a word for a level. -/
theorem ofWord?_shown_coerce (h : Level.named? text = none) {shown : String}
    (hs : (coerce text).shown = .ok shown) : Level.ofWord? shown = none := by
  have hreading := reading_coerce text
  generalize coerce text = v at hreading hs
  cases hreading with
  | nothing =>
    cases hs
    decide
  | truth b =>
    cases hs
    cases b <;> decide
  | whole _ _ hread =>
    obtain ⟨shown', hshown, c, hmem, halpha⟩ := shown_of_readWhole hread
    cases hshown.symm.trans hs
    exact Level.ofWord?_eq_none hmem halpha
  | double x =>
    cases hs
    cases x with
    | nan tag => exact (by decide : Level.ofWord? "nan" = none)
    | infinity s => cases s <;> decide
    | finite s m e =>
      obtain ⟨c, hmem, halpha⟩ := Binary64.exists_mem_text s m e
      exact Level.ofWord?_eq_none hmem halpha
  | itself =>
    cases hs
    show Level.ofWord? text = none
    rw [Level.ofWord?_eq_named?]
    exact h

end Environment

end ContextLog
