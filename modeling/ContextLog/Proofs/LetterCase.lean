import ContextLog.Text.Case
/-!
# Small and capital letters of seven-bit texts

Of the characters above the seven-bit ones only the Kelvin sign has a seven-bit small form, which is `k`,
and the dotted capital `I` becomes two characters of which the second one is no seven-bit one. So a word of
seven-bit characters without `k` is the small form of just those texts that differ from it in the case of
their seven-bit letters (`lower_eq_iff`).

No character but the underscore has one in its capital form, so a text that does not end in an underscore has
a capital form that does not either (`getLast?_upper_ne`).
-/

namespace ContextLog.Text

/-! ## Seven-bit characters -/

theorem toNat_toLower (c : Char) :
    c.toLower.toNat = if 65 ≤ c.toNat ∧ c.toNat ≤ 90 then c.toNat + 32 else c.toNat := by
  have hlow : 'A'.val ≤ c.val ↔ 65 ≤ c.toNat := .rfl
  have hhigh : c.val ≤ 'Z'.val ↔ c.toNat ≤ 90 := .rfl
  unfold Char.toLower
  by_cases h : 65 ≤ c.toNat ∧ c.toNat ≤ 90
  · rw [dif_pos ⟨hlow.2 h.1, hhigh.2 h.2⟩, if_pos h]
    show (c.val + 32).toNat = c.val.toNat + 32
    have hc : c.val.toNat ≤ 90 := h.2
    rw [UInt32.toNat_add]
    exact Nat.mod_eq_of_lt (by simp; omega)
  · rw [dif_neg fun hc => h ⟨hlow.1 hc.1, hhigh.1 hc.2⟩, if_neg h]

theorem toLower_lt_iff {c : Char} : c.toLower.toNat < 0x80 ↔ c.toNat < 0x80 := by
  rw [toNat_toLower]
  split <;> omega

theorem toList_toLower (s : String) : s.toLower.toList = s.toList.map Char.toLower := String.toList_map

theorem lowerAfter_of_sevenBit (before : List Char) {cs : List Char} (h : ∀ c ∈ cs, c.toNat < 0x80) :
    lowerAfter before cs = cs.map Char.toLower := by
  induction cs generalizing before with
  | nil => rfl
  | cons c rest ih =>
    obtain ⟨hc, hrest⟩ := List.forall_mem_cons.1 h
    have hsigma : c.toNat ≠ 0x3a3 := by omega
    rw [lowerAfter, if_neg hsigma, ih _ hrest, lowerChar, if_pos hc]
    rfl

theorem lower_of_sevenBit {s : String} (h : ∀ c ∈ s.toList, c.toNat < 0x80) : lower s = s.toLower := by
  rw [lower, lowerAfter_of_sevenBit [] h, ← toList_toLower, String.ofList_toList]

/-! ## All other characters -/

/-- Every run of capital letters has small letters below or above the gap in the code points that are no
seven-bit characters, but for the Kelvin sign, whose small letter is `k`. -/
theorem lowerRuns_bounds : ∀ r ∈ lowerRuns,
    (0x80 ≤ r.first + r.shift ∧ r.last + r.shift < 0xd800) ∨
      (0xdfff < r.first + r.shift ∧ r.last + r.shift < 0x110000) ∨
      (r.first = r.last ∧ r.first + r.shift = 'k'.toNat) := by
  decide +kernel

theorem image?_bounds {r : CaseRun} {n m : Nat} (h : r.image? n = some m) :
    r.first ≤ n ∧ n ≤ r.last ∧ m = (n + r.shift).toNat := by
  unfold CaseRun.image? at h
  split at h
  · rename_i hr
    cases h
    simp at hr
    exact ⟨hr.1.1, hr.1.2, rfl⟩
  · cases h

theorem toNat_ofNat {n : Nat} (h : n.isValidChar) : (Char.ofNat n).toNat = n := by
  rw [Char.ofNat, dif_pos h]
  rfl

/-- The small form of a character that is no seven-bit one has none either, or it is `k`. -/
theorem exists_mem_lowerChar {c : Char} (hc : 0x80 ≤ c.toNat) :
    ∃ d ∈ lowerChar c, 0x80 ≤ d.toNat ∨ d = 'k' := by
  unfold lowerChar
  rw [if_neg (by omega)]
  by_cases hdotted : c.toNat = 0x130
  · rw [if_pos hdotted]
    exact ⟨Char.ofNat 0x307, by simp, .inl (by decide)⟩
  · rw [if_neg hdotted]
    refine ⟨_, List.mem_singleton_self _, ?_⟩
    cases himage : lowerRuns.findSome? (·.image? c.toNat) with
    | none => exact .inl (by rw [Option.getD_none, Char.ofNat_toNat]; exact hc)
    | some m =>
      obtain ⟨r, hr, hm⟩ := List.exists_of_findSome?_eq_some himage
      obtain ⟨hfirst, hlast, hshift⟩ := image?_bounds hm
      rw [Option.getD_some]
      rcases lowerRuns_bounds r hr with ⟨hlow, hhigh⟩ | ⟨hlow, hhigh⟩ | ⟨hone, hk⟩
      · left
        rw [toNat_ofNat (.inl (by omega))]
        omega
      · left
        rw [toNat_ofNat (.inr ⟨by omega, by omega⟩)]
        omega
      · right
        have hm : m = 'k'.toNat := by omega
        rw [hm]
        rfl

theorem exists_mem_lowerAfter (before : List Char) {cs : List Char} {c : Char} (hmem : c ∈ cs)
    (hc : 0x80 ≤ c.toNat) : ∃ d ∈ lowerAfter before cs, 0x80 ≤ d.toNat ∨ d = 'k' := by
  induction cs generalizing before with
  | nil => cases hmem
  | cons c' rest ih =>
    rw [lowerAfter]
    rcases List.mem_cons.1 hmem with rfl | hmem
    · by_cases hsigma : c.toNat = 0x3a3
      · rw [if_pos hsigma]
        refine ⟨_, List.mem_append_left _ (List.mem_singleton_self _), .inl ?_⟩
        split <;> decide
      · rw [if_neg hsigma]
        obtain ⟨d, hd, hwide⟩ := exists_mem_lowerChar hc
        exact ⟨d, List.mem_append_left _ hd, hwide⟩
    · obtain ⟨d, hd, hwide⟩ := ih (c' :: before) hmem
      exact ⟨d, List.mem_append_right _ hd, hwide⟩

/-! ## Words -/

/-- A word of seven-bit characters without `k`. -/
def IsPlainWord (w : String) : Prop := ∀ c ∈ w.toList, c.toNat < 0x80 ∧ c ≠ 'k'

instance (w : String) : Decidable (IsPlainWord w) := List.decidableBAll _ w.toList

/-- A text has a plain word as its small form if it is that word in some case of its seven-bit letters. -/
theorem lower_eq_iff {w : String} (hw : IsPlainWord w) (s : String) : lower s = w ↔ s.toLower = w := by
  constructor
  · intro h
    have hseven : ∀ c ∈ s.toList, c.toNat < 0x80 := by
      intro c hc
      refine Nat.lt_of_not_le fun hwide => ?_
      obtain ⟨d, hd, hd'⟩ := exists_mem_lowerAfter [] hc hwide
      have hmem : d ∈ w.toList := by
        rw [← h, lower, String.toList_ofList]
        exact hd
      obtain ⟨hlt, hk⟩ := hw d hmem
      rcases hd' with hd' | rfl
      · omega
      · exact hk rfl
    rw [← lower_of_sevenBit hseven, h]
  · intro h
    have hseven : ∀ c ∈ s.toList, c.toNat < 0x80 := by
      intro c hc
      have hmem : c.toLower ∈ w.toList := by
        rw [← h, toList_toLower]
        exact List.mem_map_of_mem hc
      exact toLower_lt_iff.1 (hw _ hmem).1
    rw [lower_of_sevenBit hseven, h]

/-! ## Capital letters -/

theorem toNat_toUpper (c : Char) :
    c.toUpper.toNat = if 97 ≤ c.toNat ∧ c.toNat ≤ 122 then c.toNat - 32 else c.toNat := by
  have hlow : 'a'.val ≤ c.val ↔ 97 ≤ c.toNat := .rfl
  have hhigh : c.val ≤ 'z'.val ↔ c.toNat ≤ 122 := .rfl
  unfold Char.toUpper
  by_cases h : 97 ≤ c.toNat ∧ c.toNat ≤ 122
  · rw [dif_pos ⟨hlow.2 h.1, hhigh.2 h.2⟩, if_pos h]
    show (c.val + ('A'.val - 'a'.val)).toNat = c.val.toNat - 32
    have hc : 97 ≤ c.val.toNat ∧ c.val.toNat ≤ 122 := h
    have hshift : ('A'.val - 'a'.val).toNat = 4294967264 := by decide
    rw [UInt32.toNat_add, hshift]
    omega
  · rw [dif_neg fun hc => h ⟨hlow.1 hc.1, hhigh.1 hc.2⟩, if_neg h]

theorem upperChar_of_sevenBit {c : Char} (h : c.toNat < 0x80) : upperChar c = [c.toUpper] := if_pos h

theorem toList_upper_of_sevenBit {s : String} (h : ∀ c ∈ s.toList, c.toNat < 0x80) :
    (upper s).toList = s.toList.map Char.toUpper := by
  rw [upper, String.toList_ofList]
  generalize s.toList = cs at h
  induction cs with
  | nil => rfl
  | cons c rest ih =>
    obtain ⟨hc, hrest⟩ := List.forall_mem_cons.1 h
    rw [List.flatMap_cons, List.map_cons, upperChar_of_sevenBit hc, ih hrest]
    rfl

/-- No run of small letters has an underscore among its capital ones. -/
theorem upperRuns_clear : ∀ r ∈ upperRuns, '_'.toNat < r.first + r.shift ∨ r.last + r.shift < '_'.toNat := by
  decide +kernel

theorem upperExpansions_clear : ∀ e ∈ upperExpansions, e.2 ≠ [] ∧ '_'.toNat ∉ e.2 := by
  decide +kernel

theorem ofNat_ne_underscore {n : Nat} (h : n ≠ '_'.toNat) : Char.ofNat n ≠ '_' := by
  intro hc
  by_cases hvalid : n.isValidChar
  · exact h (by rw [← hc, toNat_ofNat hvalid])
  · rw [Char.ofNat, dif_neg hvalid] at hc
    exact absurd hc (by decide)

theorem upperChar_ne_nil (c : Char) : upperChar c ≠ [] := by
  unfold upperChar
  split
  · exact List.cons_ne_nil _ _
  · split
    · rename_i cs hcs
      obtain ⟨before, after, htable, -⟩ := List.lookup_eq_some_iff.1 hcs
      have hmem : (c.toNat, cs) ∈ upperExpansions := by simp [htable]
      simpa using (upperExpansions_clear _ hmem).1
    · exact List.cons_ne_nil _ _

/-- Only an underscore has one in its capital form. -/
theorem eq_underscore_of_mem_upperChar {c : Char} (h : '_' ∈ upperChar c) : c = '_' := by
  have hscore : '_'.toNat = 95 := rfl
  unfold upperChar at h
  split at h
  · have hupper : c.toUpper.toNat = '_'.toNat := congrArg Char.toNat (List.mem_singleton.1 h).symm
    rw [toNat_toUpper] at hupper
    apply Char.toNat_inj.1
    split at hupper <;> omega
  · exfalso
    split at h
    · rename_i cs hcs
      obtain ⟨before, after, htable, -⟩ := List.lookup_eq_some_iff.1 hcs
      have hmem : (c.toNat, cs) ∈ upperExpansions := by simp [htable]
      obtain ⟨n, hn, hscore⟩ := List.mem_map.1 h
      exact ofNat_ne_underscore (fun he => (upperExpansions_clear _ hmem).2 (he ▸ hn)) hscore
    · refine ofNat_ne_underscore ?_ (List.mem_singleton.1 h).symm
      cases himage : upperRuns.findSome? (·.image? c.toNat) with
      | none =>
        rw [Option.getD_none]
        omega
      | some m =>
        obtain ⟨r, hr, hm⟩ := List.exists_of_findSome?_eq_some himage
        obtain ⟨hfirst, hlast, hshift⟩ := image?_bounds hm
        have hclear := upperRuns_clear r hr
        rw [Option.getD_some]
        omega

/-- A text that does not end in an underscore has a capital form that does not either. -/
theorem getLast?_upper_ne {s : String} (h : s.toList.getLast? ≠ some '_') :
    (upper s).toList.getLast? ≠ some '_' := by
  rw [upper, String.toList_ofList, List.getLast?_flatMap]
  rw [← List.head?_reverse] at h
  cases hcs : s.toList.reverse with
  | nil => exact nofun
  | cons c rest =>
    rw [hcs] at h
    obtain ⟨d, hd⟩ : ∃ d, (upperChar c).getLast? = some d := ⟨_, List.getLast?_eq_some_getLast (upperChar_ne_nil c)⟩
    rw [List.findSome?_cons, hd]
    rintro ⟨⟩
    have hc : c = '_' := eq_underscore_of_mem_upperChar (List.mem_of_getLast? hd)
    exact h (by rw [hc]; rfl)

end ContextLog.Text
