import Mathlib.Data.List.Basic
import Mathlib.Data.Nat.Digits.Defs
import ContextLog.Value.Shown
/-!
# Texts of printable characters

Whatever characters a text is made of, it is quoted by printable ones (`quoted_allPrintable`), and so are numbers
written (`wholeText_allPrintable`, `Binary64.text_allPrintable`). No line end, nor any other control character, is
printable (`AllPrintable.not_mem`).
-/

namespace ContextLog

namespace Text

/-- All characters of the text are printable. -/
def AllPrintable (s : String) : Prop := ∀ c ∈ s.toList, isPrintable c

instance (s : String) : Decidable (AllPrintable s) := List.decidableBAll (fun c => isPrintable c) s.toList

variable {s t : String} {cs : List Char}

theorem AllPrintable.not_mem (h : AllPrintable s) {c : Char} (hc : c.toNat < 0x20) : c ∉ s.toList := fun hmem =>
  Bool.false_ne_true ((not_isPrintable_of_lt hc).symm.trans (h c hmem))

theorem allPrintable_ofList : AllPrintable (String.ofList cs) ↔ ∀ c ∈ cs, isPrintable c := by
  rw [AllPrintable, String.toList_ofList]

theorem AllPrintable.append (hs : AllPrintable s) (ht : AllPrintable t) : AllPrintable (s ++ t) := by
  intro c hc
  rw [String.toList_append] at hc
  exact (List.mem_append.1 hc).elim (hs c) (ht c)

theorem AllPrintable.intercalate (hs : AllPrintable s) {items : List String} (h : ∀ t ∈ items, AllPrintable t) :
    AllPrintable (s.intercalate items) := by
  induction items with
  | nil => exact (by decide : AllPrintable "")
  | cons item items ih =>
    obtain ⟨hitem, hitems⟩ := List.forall_mem_cons.1 h
    cases items with
    | nil =>
      rw [String.intercalate_singleton]
      exact hitem
    | cons next items =>
      rw [String.intercalate_cons_cons]
      exact (hitem.append hs).append (ih hitems)

/-! ## Digits -/

theorem isPrintable_digitChar : ∀ d < 16, isPrintable (Nat.digitChar d) := by decide

/-- Digits are printable, decimal ones and hexadecimal ones. -/
theorem toDigits_printable {b : Nat} (hb : 1 < b) (hle : b ≤ 16) (n : Nat) : ∀ c ∈ Nat.toDigits b n, isPrintable c := by
  induction n using Nat.strong_induction_on with
  | _ n ih =>
    intro c hc
    rw [Nat.toDigits_eq_if hb] at hc
    split at hc
    · obtain rfl := List.mem_singleton.1 hc
      exact isPrintable_digitChar n (by omega)
    · rcases List.mem_append.1 hc with hc | hc
      · exact ih (n / b) (Nat.div_lt_self (by omega) hb) c hc
      · obtain rfl := List.mem_singleton.1 hc
        exact isPrintable_digitChar _ (lt_of_lt_of_le (Nat.mod_lt n (by omega)) hle)

theorem hexDigits_printable (width n : Nat) : ∀ c ∈ hexDigits width n, isPrintable c := by
  intro c hc
  rcases List.mem_append.1 hc with hc | hc
  · obtain rfl := List.eq_of_mem_replicate hc
    rfl
  · exact toDigits_printable (by decide) (by decide) n c hc

/-! ## Quoted texts -/

theorem numbered_printable (c : Char) : ∀ d ∈ numbered c, isPrintable d := by
  unfold numbered
  split
  · exact List.forall_mem_cons.2 ⟨rfl, List.forall_mem_cons.2 ⟨rfl, hexDigits_printable _ _⟩⟩
  · split
    · exact List.forall_mem_cons.2 ⟨rfl, List.forall_mem_cons.2 ⟨rfl, hexDigits_printable _ _⟩⟩
    · exact List.forall_mem_cons.2 ⟨rfl, List.forall_mem_cons.2 ⟨rfl, hexDigits_printable _ _⟩⟩

/-- A character inside quotes is kept only if it is printable. -/
theorem quotedChar_printable {quote : Char} (hquote : isPrintable quote) (c : Char) :
    ∀ d ∈ quotedChar quote isPrintable c, isPrintable d := by
  have hescaped : ∀ e, isPrintable e → ∀ d ∈ ['\\', e], isPrintable d := fun e he =>
    List.forall_mem_cons.2 ⟨rfl, List.forall_mem_singleton.2 he⟩
  unfold quotedChar
  split
  · rename_i h
    rcases h with rfl | rfl
    · exact hescaped _ hquote
    · exact hescaped _ rfl
  · split
    · exact hescaped _ rfl
    · split
      · exact hescaped _ rfl
      · split
        · exact hescaped _ rfl
        · split
          · exact List.forall_mem_singleton.2 ‹_›
          · exact numbered_printable c

theorem quoteFor_printable (cs : List Char) : isPrintable (quoteFor cs) := by
  unfold quoteFor
  split
  · rfl
  · rfl

theorem quoted_allPrintable (s : String) : AllPrintable (quoted s) := by
  have hquote := quoteFor_printable s.toList
  refine allPrintable_ofList.2 fun c hc => ?_
  rcases List.mem_append.1 hc with hc | hc
  · rcases List.mem_cons.1 hc with rfl | hc
    · exact hquote
    · obtain ⟨d, -, hc⟩ := List.mem_flatMap.1 hc
      exact quotedChar_printable hquote d c hc
  · obtain rfl := List.mem_singleton.1 hc
    exact hquote

end Text

open Text

/-! ## Numbers -/

theorem wholeText_allPrintable {n : Int} {s : String} (h : wholeText n = .ok s) : AllPrintable s := by
  unfold wholeText at h
  dsimp only at h
  split at h
  · cases h
  · cases h
    refine .append ?_ (allPrintable_ofList.2 (toDigits_printable (by decide) (by decide) _))
    split
    · decide
    · decide

namespace Binary64

theorem exponentText_allPrintable (e : Int) : AllPrintable (exponentText e) := by
  have hdigits : AllPrintable (String.ofList (Nat.toDigits 10 e.natAbs)) :=
    allPrintable_ofList.2 (toDigits_printable (by decide) (by decide) _)
  unfold exponentText
  refine .append ?_ ?_
  · split
    · decide
    · decide
  · split
    · exact .append (by decide) hdigits
    · exact hdigits

theorem Scientific.text_allPrintable (x : Scientific) : AllPrintable x.text := by
  have hdigits := toDigits_printable (b := 10) (by decide) (by decide) x.strip.digits
  have hzeros : ∀ n, ∀ c ∈ List.replicate n '0', isPrintable c := fun n c hc => by
    obtain rfl := List.eq_of_mem_replicate hc
    rfl
  unfold text
  dsimp only
  split
  · split
    · exact .append (by decide) (allPrintable_ofList.2 (List.forall_mem_append.2 ⟨hzeros _, hdigits⟩))
    · split
      · exact .append (allPrintable_ofList.2 (List.forall_mem_append.2 ⟨hdigits, hzeros _⟩)) (by decide)
      · refine .append (.append (allPrintable_ofList.2 fun c hc => hdigits c (List.mem_of_mem_take hc)) (by decide)) ?_
        exact allPrintable_ofList.2 fun c hc => hdigits c (List.mem_of_mem_drop hc)
  · refine .append (.append ?_ (by decide)) (exponentText_allPrintable _)
    generalize Nat.toDigits 10 x.strip.digits = digits at hdigits
    split
    · exact allPrintable_ofList.2 hdigits
    · obtain ⟨hd, hrest⟩ := List.forall_mem_cons.1 hdigits
      exact allPrintable_ofList.2 (List.forall_mem_cons.2 ⟨hd, List.forall_mem_cons.2 ⟨rfl, hrest⟩⟩)
    · decide

theorem text_allPrintable (x : Binary64) : AllPrintable x.text := by
  cases x with
  | nan payload => exact (by decide : AllPrintable "nan")
  | infinity negative =>
    cases negative
    · exact (by decide : AllPrintable "inf")
    · exact (by decide : AllPrintable "-inf")
  | finite negative m e =>
    have hmagnitude : AllPrintable (if m = 0 then "0.0" else (shortest m e).text) := by
      split
      · decide
      · exact Scientific.text_allPrintable _
    cases negative
    · exact hmagnitude
    · exact .append (by decide : AllPrintable "-") hmagnitude

end Binary64

end ContextLog
