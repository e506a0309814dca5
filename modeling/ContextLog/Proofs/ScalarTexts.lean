import ContextLog.Proofs.Coercion
/-!
# The texts of truth values, of nothing and of whole numbers

A row of plain digits, behind a minus sign or not, is read as the whole number that it writes, and stays a text if there
are too many digits in it (`Environment.coerce_digitText`). So a whole number is read back from its decimal text, unless
that one is too long. The words are read in every case of their letters, and no text is read as another text
(`Environment.scalars_read`).
-/

namespace ContextLog

open Text

/-! ## Rows of plain digits -/

namespace Decimal

variable {negative : Bool} {ds : List Char}

/-- Digits behind their sign. -/
def signedDigits (negative : Bool) (ds : List Char) : List Char := if negative then '-' :: ds else ds

/-- The text of some digits behind their sign. -/
def digitText (negative : Bool) (ds : List Char) : String := String.ofList (signedDigits negative ds)

/-- The number that some digits write behind their sign. -/
def digitValue (negative : Bool) (ds : List Char) : Int :=
  let n : Int := Nat.ofDigitChars 10 ds 0
  if negative then -n else n

theorem digitChar_sub_zero {c : Char} (h : c.isDigit) : Nat.digitChar (c.toNat - '0'.toNat) = c := by
  have hdigit := isDigit_iff.1 h
  have hzero : '0'.toNat = 48 := rfl
  apply Char.toNat_inj.1
  rw [Nat.toNat_digitChar_of_lt_ten (by omega)]
  omega

theorem plainDigits_of_isDigit (h : ∀ c ∈ ds, c.isDigit) : plainDigits ds = some ds := by
  unfold plainDigits
  induction ds with
  | nil => rfl
  | cons c rest ih =>
    obtain ⟨hc, hrest⟩ := List.forall_mem_cons.1 h
    rw [List.mapM_cons, decimalValue?_digit hc, ih hrest, Option.map_some, digitChar_sub_zero hc]
    rfl

theorem readNatural_of_isDigit (h : ∀ c ∈ ds, c.isDigit) :
    readNatural ds = if digitLimit < ds.length then none else some (Nat.ofDigitChars 10 ds 0) := by
  unfold readNatural
  rw [plainDigits_of_isDigit h]
  rfl

/-- A row of digits has no sign of its own. -/
theorem ne_minus_cons {rest : List Char} (h : ∀ c ∈ ds, c.isDigit) : ds ≠ '-' :: rest := by
  rintro rfl
  exact absurd (h '-' List.mem_cons_self) (by decide)

theorem readWhole_signedDigits (h : ∀ c ∈ ds, c.isDigit) :
    readWhole (signedDigits negative ds) =
      if digitLimit < ds.length then none else some (digitValue negative ds) := by
  have hread := readNatural_of_isDigit h
  cases negative with
  | true =>
    show readWhole ('-' :: ds) = _
    rw [readWhole, hread]
    split <;> rfl
  | false =>
    show readWhole ds = _
    unfold readWhole
    split
    · exact absurd rfl (ne_minus_cons h)
    · rw [hread]
      split <;> rfl

end Decimal

namespace Environment

open Decimal

variable {negative : Bool} {ds : List Char} {text : String}

theorem looksWhole_signedDigits (hne : ds ≠ []) (h : ∀ c ∈ ds, c.isDigit) :
    looksWhole (signedDigits negative ds) = true := by
  have hdigits : isDigits ds = true := by
    unfold isDigits
    rw [Bool.and_eq_true, Bool.not_eq_true', List.isEmpty_eq_false_iff, List.all_eq_true]
    refine ⟨hne, fun c hc => ?_⟩
    have hbounds := isDigit_iff.1 (h c hc)
    rw [isDigitLike_of_lt (by omega)]
    exact h c hc
  cases negative with
  | true => exact hdigits
  | false =>
    show looksWhole ds = true
    unfold looksWhole
    split
    · exact absurd rfl (ne_minus_cons h)
    · exact hdigits

/-- A text with a digit in it is no word. -/
theorem not_word_of_isDigit {c : Char} (hc : c ∈ text.toList) (h : c.isDigit) :
    ∀ w ∈ ["true", "false", "null", "none"], lower text ≠ w := by
  intro w hw hword
  have hletters : ∀ w ∈ ["true", "false", "null", "none"], w.toList.all Char.isAlpha := by decide
  have hsmall : c.toLower = c := by
    have hbounds := isDigit_iff.1 h
    apply Char.toNat_inj.1
    rw [toNat_toLower, if_neg (by omega)]
  have hmem : c ∈ w.toList := by
    rw [← (lower_eq_word_iff hw text).1 hword, toList_toLower, ← hsmall]
    exact List.mem_map_of_mem hc
  have hdigit := not_isDigit_of_isAlpha (List.all_eq_true.1 (hletters w hw) c hmem)
  rw [h] at hdigit
  cases hdigit

/-- Digits are read as the number that they write, unless there are too many of them. -/
theorem coerce_digitText (hne : ds ≠ []) (h : ∀ c ∈ ds, c.isDigit) :
    coerce (digitText negative ds) =
      if digitLimit < ds.length then .str (digitText negative ds) else .int (digitValue negative ds) := by
  have hlist : (digitText negative ds).toList = signedDigits negative ds := String.toList_ofList
  obtain ⟨c, hc⟩ := List.exists_mem_of_ne_nil ds hne
  have hmem : c ∈ (digitText negative ds).toList := by
    rw [hlist]
    cases negative with
    | true => exact List.mem_cons_of_mem '-' hc
    | false => exact hc
  have hwhole : looksWhole (digitText negative ds).toList = true := by
    rw [hlist]
    exact looksWhole_signedDigits hne h
  rw [coerce_of_not_word (not_word_of_isDigit hmem (h c hc)), if_pos hwhole, hlist, readWhole_signedDigits h]
  by_cases hlong : digitLimit < ds.length
  · rw [if_pos hlong, if_pos hlong]
  · rw [if_neg hlong, if_neg hlong]

/-! ## Whole numbers -/

theorem toString_eq_digitText (n : Int) : toString n = digitText (n < 0) (Nat.toDigits 10 n.natAbs) := by
  cases n with
  | ofNat m =>
    have hsign : ¬ (Int.ofNat m < 0) := Int.not_lt.2 (Int.natCast_nonneg m)
    rw [decide_eq_false hsign]
    exact Nat.repr_eq_ofList_toDigits
  | negSucc m =>
    rw [decide_eq_true (Int.negSucc_lt_zero m)]
    show "-" ++ Nat.repr (m + 1) = _
    rw [Nat.repr_eq_ofList_toDigits, ← String.toList_inj]
    simp [digitText, signedDigits]

theorem digitValue_toDigits (n : Int) : digitValue (n < 0) (Nat.toDigits 10 n.natAbs) = n := by
  unfold digitValue
  rw [Nat.ofDigitChars_ten_toDigits]
  dsimp only
  split <;> rename_i hsign <;> simp only [decide_eq_true_eq] at hsign <;> omega

/-- A whole number is read back from its decimal text. -/
theorem coerce_toString (n : Int) (h : (Nat.toDigits 10 n.natAbs).length ≤ digitLimit) :
    coerce (toString n) = .int n := by
  have hdigits : ∀ c ∈ Nat.toDigits 10 n.natAbs, c.isDigit := fun c hc =>
    Nat.isDigit_of_mem_toDigits (by decide) (by decide) hc
  rw [toString_eq_digitText, coerce_digitText Nat.toDigits_ne_nil hdigits, if_neg (Nat.not_lt.2 h),
    digitValue_toDigits]

/-! ## The law of scalars -/

/-- A reader of texts that knows the scalars. -/
structure ReadsScalars (read : String → Value) : Prop where
  /-- A whole number of at most 4300 digits is read back from its decimal text. -/
  whole : ∀ n : Int, (Nat.toDigits 10 n.natAbs).length ≤ 4300 → read (toString n) = .int n
  /-- More digits than that stay a text, behind a minus sign or not. -/
  long : ∀ (negative : Bool) (ds : List Char), (∀ c ∈ ds, c.isDigit) → 4300 < ds.length →
    read (digitText negative ds) = .str (digitText negative ds)
  /-- The words for truth values are read in every case of their letters. -/
  truth : ∀ (b : Bool) (text : String), text.toLower = toString b → read text = .bool b
  /-- So are the words for nothing. -/
  nothing : ∀ text : String, text.toLower = "null" ∨ text.toLower = "none" → read text = .none
  /-- A text is read as itself or as no text at all. -/
  closed : ∀ text : String, read text = .str text ∨ ∀ t, read text ≠ .text t

theorem coerce_of_truth (b : Bool) (h : text.toLower = toString b) : coerce text = .bool b := by
  have hword : lower text = toString b := (lower_eq_word_iff (by cases b <;> decide) text).2 h
  unfold coerce
  rw [hword]
  cases b <;> rfl

theorem coerce_of_nothing (h : MeansNothing text) : coerce text = .none := by
  have hreading := reading_coerce text
  generalize coerce text = v at hreading
  cases hreading with
  | nothing => rfl
  | truth _ hno | whole hno | double _ hno | itself hno => exact absurd h hno

/-- The texts of the environment are read as scalars, each one as a value. -/
theorem scalars_read : ReadsScalars coerce where
  whole n h := coerce_toString n h
  long negative ds h hlong := by
    have hne : ds ≠ [] := by
      rintro rfl
      exact absurd hlong (by decide)
    rw [coerce_digitText hne h]
    exact if_pos hlong
  truth b _ h := coerce_of_truth b h
  nothing _ h := coerce_of_nothing h
  closed text := by
    have hreading := reading_coerce text
    generalize coerce text = v at hreading
    cases hreading with
    | itself => exact .inl rfl
    | _ => exact .inr fun _ => nofun

end Environment

end ContextLog
