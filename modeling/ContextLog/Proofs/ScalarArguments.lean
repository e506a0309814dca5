import ContextLog.Proofs.PrintStyle
/-!
# Messages from simple values

Texts, numbers, truth values and the absent value can be shown, but for a whole number of too many digits. So if a
template is not filled with such arguments, then formatting recovers from it, or a size is too great
(`substitution?_scalars_error`). In the second case there is no message: the failure is none of type or of value, and
it is the outcome of the call (`scalars_formatted`).
-/

namespace ContextLog

variable {args : List Value} {v : Value} {f : Failure}

/-- A text, a number, a truth value, or no value. -/
def Value.IsScalar : Value → Prop
  | .none | .bool _ | .int _ | .float _ | .text _ => True
  | _ => False

/-- A whole number has more digits than can be shown. -/
def IsLong (n : Int) : Prop := Decimal.tenTo Decimal.digitLimit ≤ n.natAbs

theorem Value.IsScalar.shown_error (hv : v.IsScalar) (h : v.shown = .error f) :
    f = .numeralTooLong ∧ ∃ n, v = .int n ∧ IsLong n := by
  cases v with
  | int n =>
    have htext : wholeText n = .error f := h
    refine ⟨wholeText_error htext, n, rfl, ?_⟩
    unfold wholeText at htext
    dsimp only at htext
    split at htext
    · exact (lt_length_toDigits_iff (by decide)).1 ‹_›
    · cases htext
  | none => cases h
  | bool b => cases h
  | float x => cases h
  | text t => cases h
  | _ => exact hv.elim

theorem render_error (h : render v = .error f) : v.shown = .error f := by
  cases v with
  | text t => cases h
  | _ =>
    rcases error_of_bind h with h | ⟨s, -, h⟩
    · exact h
    · cases h

/-! ## Without a template -/

/-- Simple values are shown, unless one of them is too long a number. -/
theorem mapM_render_scalars (hs : ∀ v ∈ args, v.IsScalar) :
    ((∀ n, .int n ∈ args → ¬ IsLong n) ∧ ∃ texts, args.mapM render = .ok texts) ∨
      (∃ n, .int n ∈ args ∧ IsLong n) ∧ args.mapM render = .error .numeralTooLong := by
  rcases mapM_cases render args with ⟨hok, htexts⟩ | ⟨v, hv, f, hf, herror⟩
  · refine .inl ⟨fun n hn hlong => ?_, htexts⟩
    have hshown : (Value.int n).shown = .error .numeralTooLong := wholeText_tooLong hlong
    have hrendered := hok _ hn
    rw [render_of_unshown hshown] at hrendered
    cases hrendered
  · obtain ⟨rfl, n, rfl, hlong⟩ := (hs v hv).shown_error (render_error hf)
    exact .inr ⟨⟨n, hv, hlong⟩, herror⟩

/-! ## With a template -/

/-- A substitution of simple values that fails: formatting recovers from it, or a size is too great. -/
theorem substitution?_scalars_error (hs : ∀ v ∈ args, v.IsScalar) (h : substitution? args = some (.error f)) :
    f.IsRecoverable ∨ ∃ t rest, args = .text t :: rest ∧ Template.Excess (Template.pieces t.content) rest f := by
  obtain ⟨t, rest, rfl, -, hfill⟩ := substitution?_eq_some h
  rcases Template.fill_error hfill with hf | ⟨v, hv, hshown⟩ | hexcess
  · exact .inl hf
  · obtain ⟨rfl, -⟩ := (hs v (List.mem_cons_of_mem _ hv)).shown_error hshown
    exact .inl Failure.numeralTooLong_isRecoverable
  · exact .inr ⟨t, rest, rfl, hexcess⟩

/-- The messages of arguments that are simple values. -/
structure FormatsScalars (args : List Value) : Prop where
  /-- Without a template the arguments are shown with single spaces between, -/
  printed : (∀ n, .int n ∈ args → ¬ IsLong n) → ∃ texts msg, args.mapM render = .ok texts ∧
    formatMessage args false = (none, .ok msg) ∧ msg.content = " ".intercalate (texts.map (·.content))
  /-- but there is no message if a number is too long. -/
  long : ∀ n, .int n ∈ args → IsLong n → formatMessage args false = (none, .error .numeralTooLong)
  /-- Where there is nothing to be substituted, a template makes no difference. -/
  unsubstituted : substitution? args = none → formatMessage args true = formatMessage args false
  /-- A substitution that succeeds is the message. -/
  filled : ∀ s, substitution? args = some (.ok s) → formatMessage args true = (none, .ok (.ofString s))
  /-- One that fails by type or by value is reported, and the message is that without a template. -/
  recovered : ∀ f, substitution? args = some (.error f) → f.isMismatch = true →
    ∃ mismatch, mismatch.Reports args f ∧ formatMessage args true = (some mismatch, (formatMessage args false).2)
  /-- One that fails otherwise has no message, and nothing is reported. That is so only if a size is too great. -/
  lost : ∀ f, substitution? args = some (.error f) → f.isMismatch = false →
    formatMessage args true = (none, .error f) ∧
      ∃ t rest, args = .text t :: rest ∧ Template.Excess (Template.pieces t.content) rest f

theorem scalars_formatted (hs : ∀ v ∈ args, v.IsScalar) : FormatsScalars args where
  printed hshort := by
    rcases mapM_render_scalars hs with ⟨-, texts, htexts⟩ | ⟨⟨n, hn, hlong⟩, -⟩
    · obtain ⟨msg, hmsg⟩ := formatMessage_printed htexts
      exact ⟨texts, msg, htexts, hmsg⟩
    · exact absurd hlong (hshort n hn)
  long n hn hlong := by
    rcases mapM_render_scalars hs with ⟨hshort, -⟩ | ⟨-, herror⟩
    · exact absurd hlong (hshort n hn)
    · exact formatMessage_unprinted herror
  unsubstituted := formatMessage_unsubstituted
  filled _ := formatMessage_filled
  recovered f h hf := by
    rcases substitution?_scalars_error hs h with hrecoverable | ⟨t, rest, -, hexcess⟩
    · exact formatMessage_recovered h hrecoverable
    · cases hf.symm.trans hexcess.isExcess.isMismatch
  lost f h hf := by
    rcases substitution?_scalars_error hs h with hrecoverable | hexcess
    · cases hf.symm.trans hrecoverable.1
    · exact ⟨formatMessage_lost h hf, hexcess⟩

/-- A template for a character, with a number that is one more than the last of them. -/
def beyondCharacters : List Value := [.str "%c", .int 0x110000]

theorem scalars_formatted_beyondCharacters :
    (∀ v ∈ beyondCharacters, v.IsScalar) ∧ FormatsScalars beyondCharacters := by
  have hs : ∀ v ∈ beyondCharacters, v.IsScalar := by simp [beyondCharacters, Value.str, Value.IsScalar]
  exact ⟨hs, scalars_formatted hs⟩

/-- It has no message with a template, though it has one without. -/
theorem characters_lost : beyondCharacters ≠ [] ∧ (∀ v ∈ beyondCharacters, v.IsScalar) ∧
    formatMessage beyondCharacters true = (none, .error (.template .characterOutOfRange)) ∧
      formatMessage beyondCharacters false = (none, .ok (.ofString "%c 1114112")) := by
  exact ⟨nofun, by simp [beyondCharacters, Value.str, Value.IsScalar], rfl, rfl⟩

end ContextLog
