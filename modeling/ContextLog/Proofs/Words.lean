import ContextLog.Proofs.Coercion
import ContextLog.Failure.Message
/-!
# Words for levels

Seven words name a level, in capital and small letters alike. The small form of a text is taken over all
characters, and still no text is read as a level but the seven words in some case of their seven-bit letters:
no other character has a small form that fits into one of them (`parse_text`).
-/

namespace ContextLog.Level

variable {text : String} {l : Level}

/-- The words for a level. -/
inductive HasWord : Level → String → Prop
  | panic : HasWord .panic "panic"
  | fatal : HasWord .fatal "fatal"
  | error : HasWord .error "error"
  | warn : HasWord .warn "warn"
  | warning : HasWord .warn "warning"
  | info : HasWord .info "info"
  | debug : HasWord .debug "debug"

theorem hasWord_of_mem_words : ∀ e ∈ words, HasWord e.2 e.1 := by
  intro e he
  simp only [words, List.mem_cons, List.not_mem_nil, or_false] at he
  rcases he with rfl | rfl | rfl | rfl | rfl | rfl | rfl <;> constructor

theorem named?_eq_some_iff : named? text = some l ↔ l.HasWord text.toLower := by
  constructor
  · intro h
    exact hasWord_of_mem_words _ (mem_words_of_named? h)
  · intro h
    unfold named?
    generalize text.toLower = word at h
    cases h <;> rfl

/-- A value is read by its text, and the error for one that names no level keeps the value and shows its text. -/
theorem parse_of_shown {v : Value} (h : v.shown = .ok text) :
    parse v = match named? text with
      | some l => .ok l
      | none => .error (.invalidLevel v text) := by
  rw [parse, h, ← ofWord?_eq_named?]
  cases hword : ofWord? text <;> simp [bind, Except.bind, hword] <;> rfl

/-- How a text is read as a level. -/
structure ReadsText (text : String) : Prop where
  /-- What is read is a level by one of its words, in any case of the seven-bit letters. -/
  accepted : ∀ l, parse (.str text) = .ok l ↔ l.HasWord text.toLower
  /-- Any other text is refused by an error that has the text and tells it. -/
  refused : (∀ l : Level, ¬ l.HasWord text.toLower) →
    ∃ failure, parse (.str text) = .error failure ∧ failure = .invalidLevel (.str text) text ∧
      failure.kind = .invalidLevel ∧ failure.message = .ok ("invalid level: " ++ text)
  /-- Blanks, digits and letters beyond the seven-bit ones are in no text that is read. -/
  letters : ∀ l, parse (.str text) = .ok l → ∀ c ∈ text.toList, c.isAlpha

/-- A text is read as the level whose word it is, in any case of its seven-bit letters, and no other text is
read as a level. -/
theorem parse_text (text : String) : ReadsText text := by
  have hshown : (Value.str text).shown = .ok text := rfl
  have hparse := parse_of_shown hshown
  have haccepted : ∀ l, parse (.str text) = .ok l ↔ l.HasWord text.toLower := by
    intro l
    rw [hparse, ← named?_eq_some_iff]
    cases named? text <;> simp
  refine ⟨haccepted, fun hno => ?_, fun l hl => ?_⟩
  · have hnone : named? text = none :=
      Option.eq_none_iff_forall_ne_some.2 fun l hl => hno l (named?_eq_some_iff.1 hl)
    rw [hnone] at hparse
    exact ⟨_, hparse, rfl, rfl, rfl⟩
  · exact (isAlpha_of_named? (named?_eq_some_iff.2 ((haccepted l).1 hl))).2

/-- A dotted capital `I` has a small form of two characters. -/
example : (parse (.str "\u0130nfo")).toOption = none := by decide +kernel

end ContextLog.Level
