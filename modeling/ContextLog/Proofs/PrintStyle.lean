import ContextLog.Dispatch
import ContextLog.Proofs.Filling
/-!
# Messages with and without a template

Where a template is allowed, a first text with something behind it is one, and what is behind it is put into it
(`substitution?`). Otherwise all arguments are shown with single spaces between. The two ways of making a message
differ only where there is a substitution that succeeds, or that fails in a way which formatting does not recover
from; where it recovers, the mismatch is reported once (`styles_compared`).
-/

namespace ContextLog

variable {args : List Value} {v : Value} {f : Failure}

/-! ## Messages without a template -/

/-- A template is looked for only in a first text with something behind it. -/
theorem formatMessage_untemplated (h : ∀ first rest, args = first :: rest → rest ≠ [] → first.isText = false) :
    formatMessage args false = formatMessage args true := by
  cases args with
  | nil => rfl
  | cons first rest =>
    simp only [formatMessage]
    cases render first with
    | error f => rfl
    | ok text =>
      cases rest with
      | nil => rfl
      | cons second rest => simp [h first (second :: rest) rfl (by simp)]

/-- Two or more arguments without a template are joined. -/
theorem formatMessage_joined (first second : Value) (rest : List Value) :
    formatMessage (first :: second :: rest) false =
      (none, joinTexts <$> (first :: second :: rest).mapM render) := by
  have hall : (first :: second :: rest).mapM render = (do
      let text ← render first
      let parts ← (second :: rest).mapM render
      return text :: parts) := List.mapM_cons
  rw [hall]
  unfold formatMessage printStyle
  dsimp only
  generalize (second :: rest).mapM render = parts
  cases render first with
  | error f => rfl
  | ok text =>
    cases parts with
    | error f => simp only [List.isEmpty_cons, Bool.and_false]; rfl
    | ok parts => simp only [List.isEmpty_cons, Bool.and_false]; rfl

/-- A single argument is shown as it is. -/
theorem formatMessage_single (v : Value) (templated : Bool) : formatMessage [v] templated = (none, render v) := by
  simp only [formatMessage]
  cases render v <;> rfl

theorem rendered_ne_nil {texts : List Text} (hne : args ≠ []) (h : args.mapM render = .ok texts) : texts ≠ [] := by
  cases args with
  | nil => contradiction
  | cons v args =>
    rw [List.mapM_cons] at h
    obtain ⟨text, -, h⟩ := ok_of_bind h
    obtain ⟨texts', -, h⟩ := ok_of_bind h
    cases h
    exact List.cons_ne_nil _ _

/-- Arguments that can be rendered have a message: what they are rendered as, with single spaces between. -/
theorem formatMessage_printed {texts : List Text} (h : args.mapM render = .ok texts) :
    ∃ msg, formatMessage args false = (none, .ok msg) ∧ msg.content = " ".intercalate (texts.map (·.content)) := by
  match args with
  | [] =>
    cases h
    exact ⟨.ofString "", rfl, rfl⟩
  | [v] =>
    rw [List.mapM_cons] at h
    obtain ⟨text, hv, h⟩ := ok_of_bind h
    cases h
    exact ⟨text, by rw [formatMessage_single, hv], by simp⟩
  | first :: second :: rest => exact ⟨joinTexts texts, by rw [formatMessage_joined, h]; rfl, rfl⟩

/-- Arguments one of which cannot be rendered have none. -/
theorem formatMessage_unprinted (h : args.mapM render = .error f) : formatMessage args false = (none, .error f) := by
  match args with
  | [] => cases h
  | [v] =>
    rw [List.mapM_cons] at h
    rcases error_of_bind h with h | ⟨text, -, h⟩
    · rw [formatMessage_single, h]
    · cases h
  | first :: second :: rest => rw [formatMessage_joined, h]; rfl

/-- Nothing is reported without a template. -/
theorem formatMessage_quiet (args : List Value) : (formatMessage args false).1 = none := by
  match args with
  | [] => rfl
  | [v] => rw [formatMessage_single]
  | first :: second :: rest => rw [formatMessage_joined]

theorem render_of_unshown (h : v.shown = .error f) : render v = .error f := by
  cases v with
  | text t => cases h
  | _ =>
    simp only [render, h]
    rfl

/-! ## Messages with a template -/

/-- The substitution that arguments ask for, if they ask for one: a first text with something behind it is a template
for that. -/
def substitution? : List Value → Option (Except Failure String)
  | .text t :: v :: rest => some (Template.fill t.content (v :: rest))
  | _ => none

theorem substitution?_of_ne_nil (t : Text) {rest : List Value} (h : rest ≠ []) :
    substitution? (.text t :: rest) = some (Template.fill t.content rest) := by
  cases rest with
  | nil => contradiction
  | cons v rest => rfl

theorem substitution?_eq_some {x : Except Failure String} (h : substitution? args = some x) :
    ∃ t rest, args = .text t :: rest ∧ rest ≠ [] ∧ Template.fill t.content rest = x := by
  unfold substitution? at h
  split at h
  · cases h
    exact ⟨_, _, rfl, List.cons_ne_nil _ _, rfl⟩
  · cases h

/-- A template is filled. If its arguments do not fit, that is reported, and all of them are shown. -/
theorem formatMessage_substitution (t : Text) {rest : List Value} (h : rest ≠ []) :
    formatMessage (.text t :: rest) true = match Template.fill t.content rest with
      | .ok s => (none, .ok (.ofString s))
      | .error failure =>
        if failure.isMismatch then
          match failure.message with
          | .ok error => (some ⟨t, rest.length, error⟩, (formatMessage (.text t :: rest) false).2)
          | .error inner => (none, .error inner)
        else (none, .error failure) := by
  cases rest with
  | nil => contradiction
  | cons v rest => rfl

theorem formatMessage_unsubstituted (h : substitution? args = none) :
    formatMessage args true = formatMessage args false := by
  refine (formatMessage_untemplated fun first rest hargs hrest => ?_).symm
  subst hargs
  cases first with
  | text t => cases (substitution?_of_ne_nil t hrest).symm.trans h
  | _ => rfl

theorem formatMessage_filled {s : String} (h : substitution? args = some (.ok s)) :
    formatMessage args true = (none, .ok (.ofString s)) := by
  obtain ⟨t, rest, rfl, hne, hfill⟩ := substitution?_eq_some h
  rw [formatMessage_substitution t hne, hfill]

/-- The mismatch that is reported for arguments which fail to be substituted. -/
def Mismatch.Reports (m : Mismatch) (args : List Value) (f : Failure) : Prop :=
  ∃ t rest, args = .text t :: rest ∧ m.template = t ∧ m.arguments = rest.length ∧ f.message = .ok m.error

/-- Formatting recovers from arguments that do not fit: that is reported, and all of them are shown. -/
theorem formatMessage_recovered (h : substitution? args = some (.error f)) (hf : f.IsRecoverable) :
    ∃ mismatch : Mismatch, mismatch.Reports args f ∧
      formatMessage args true = (some mismatch, (formatMessage args false).2) := by
  obtain ⟨t, rest, rfl, hne, hfill⟩ := substitution?_eq_some h
  obtain ⟨hmismatch, error, herror⟩ := hf
  refine ⟨⟨t, rest.length, error⟩, ⟨t, rest, rfl, rfl, rfl, herror⟩, ?_⟩
  rw [formatMessage_substitution t hne, hfill]
  dsimp only
  rw [if_pos hmismatch, herror]

/-- But it does not if the failure has no text. -/
theorem formatMessage_unreportable {inner : Failure} (h : substitution? args = some (.error f))
    (hf : f.isMismatch = true) (hinner : f.message = .error inner) :
    formatMessage args true = (none, .error inner) := by
  obtain ⟨t, rest, rfl, hne, hfill⟩ := substitution?_eq_some h
  rw [formatMessage_substitution t hne, hfill]
  dsimp only
  rw [if_pos hf, hinner]

theorem formatMessage_lost (h : substitution? args = some (.error f)) (hf : f.isMismatch = false) :
    formatMessage args true = (none, .error f) := by
  obtain ⟨t, rest, rfl, hne, hfill⟩ := substitution?_eq_some h
  rw [formatMessage_substitution t hne, hfill]
  simp [hf]

/-! ## The two ways -/

/-- How the message of arguments with a template is related to the one without. -/
structure ComparesStyles (args : List Value) : Prop where
  /-- The outcome is the same, unless there is a substitution that succeeds or that formatting does not recover
  from. -/
  same : (∀ x, substitution? args = some x → ∃ f, x = .error f ∧ f.IsRecoverable) →
    (formatMessage args true).2 = (formatMessage args false).2
  /-- A substitution that succeeds is the message. -/
  filled : ∀ s, substitution? args = some (.ok s) → formatMessage args true = (none, .ok (.ofString s))
  /-- A failure that is none of type or of value is the outcome. -/
  lost : ∀ f, substitution? args = some (.error f) → f.isMismatch = false →
    formatMessage args true = (none, .error f)
  /-- A failure of type or of value whose own text fails gives that failure for an outcome. There is no message
  without a template either. -/
  unreportable : ∀ f inner, substitution? args = some (.error f) → f.isMismatch = true → f.message = .error inner →
    formatMessage args true = (none, .error inner) ∧ ∃ g, formatMessage args false = (none, .error g)
  /-- A mismatch is reported exactly if formatting recovers from it. -/
  reported : ∀ mismatch, (formatMessage args true).1 = some mismatch ↔
    ∃ f, substitution? args = some (.error f) ∧ f.isMismatch = true ∧ mismatch.Reports args f
  /-- Without a template nothing is reported. -/
  quiet : (formatMessage args false).1 = none
  /-- What more arguments are shown as follows behind a space, if all of them can be rendered. -/
  appended : ∀ more, args ≠ [] → more ≠ [] → (∀ v ∈ args ++ more, ∃ text, render v = .ok text) →
    ∃ x y z, formatMessage args false = (none, .ok x) ∧ formatMessage more false = (none, .ok y) ∧
      formatMessage (args ++ more) false = (none, .ok z) ∧ z.content = x.content ++ " " ++ y.content

theorem formatMessage_same (h : ∀ x, substitution? args = some x → ∃ f, x = .error f ∧ f.IsRecoverable) :
    (formatMessage args true).2 = (formatMessage args false).2 := by
  cases hsub : substitution? args with
  | none => rw [formatMessage_unsubstituted hsub]
  | some x =>
    obtain ⟨f, rfl, hf⟩ := h x hsub
    obtain ⟨mismatch, -, hmessage⟩ := formatMessage_recovered hsub hf
    rw [hmessage]

/-- If a mismatch has no text, then it is because of an argument that cannot be rendered. -/
theorem formatMessage_unrendered {inner : Failure} (h : substitution? args = some (.error f))
    (hf : f.isMismatch = true) (hinner : f.message = .error inner) :
    ∃ g, formatMessage args false = (none, .error g) := by
  obtain ⟨t, rest, rfl, -, hfill⟩ := substitution?_eq_some h
  rcases Template.fill_error hfill with ⟨-, error, herror⟩ | ⟨v, hv, hshown⟩ | hexcess
  · cases hinner.symm.trans herror
  · rcases mapM_cases render (.text t :: rest) with ⟨hok, -⟩ | ⟨w, -, g, -, hg⟩
    · have hrendered := hok v (List.mem_cons_of_mem _ hv)
      rw [render_of_unshown hshown] at hrendered
      cases hrendered
    · exact ⟨g, formatMessage_unprinted hg⟩
  · cases hf.symm.trans hexcess.isExcess.isMismatch

theorem Mismatch.Reports.message_eq {m : Mismatch} (h : m.Reports args f) : f.message = .ok m.error := by
  obtain ⟨t, rest, -, -, -, herror⟩ := h
  exact herror

theorem Mismatch.Reports.unique {m m' : Mismatch} (h : m.Reports args f) (h' : m'.Reports args f) : m = m' := by
  obtain ⟨t, rest, rfl, htemplate, harguments, herror⟩ := h
  obtain ⟨t', rest', hargs, htemplate', harguments', herror'⟩ := h'
  cases hargs
  cases m
  cases m'
  simp_all

theorem formatMessage_reported (mismatch : Mismatch) : (formatMessage args true).1 = some mismatch ↔
    ∃ f, substitution? args = some (.error f) ∧ f.isMismatch = true ∧ mismatch.Reports args f := by
  constructor
  · intro h
    match hsub : substitution? args with
    | none =>
      rw [formatMessage_unsubstituted hsub, formatMessage_quiet] at h
      cases h
    | some (.ok s) =>
      rw [formatMessage_filled hsub] at h
      cases h
    | some (.error f) =>
      cases hf : f.isMismatch with
      | false =>
        rw [formatMessage_lost hsub hf] at h
        cases h
      | true =>
        cases herror : f.message with
        | error inner =>
          rw [formatMessage_unreportable hsub hf herror] at h
          cases h
        | ok error =>
          obtain ⟨mismatch', hreports, hmessage⟩ := formatMessage_recovered hsub ⟨hf, error, herror⟩
          rw [hmessage] at h
          cases h
          exact ⟨f, rfl, hf, hreports⟩
  · rintro ⟨f, hsub, hf, hreports⟩
    obtain ⟨mismatch', hreports', hmessage⟩ := formatMessage_recovered hsub ⟨hf, _, hreports.message_eq⟩
    rw [hmessage, hreports.unique hreports']

theorem formatMessage_appended (more : List Value) (ha : args ≠ []) (hm : more ≠ [])
    (h : ∀ v ∈ args ++ more, ∃ text, render v = .ok text) :
    ∃ x y z, formatMessage args false = (none, .ok x) ∧ formatMessage more false = (none, .ok y) ∧
      formatMessage (args ++ more) false = (none, .ok z) ∧ z.content = x.content ++ " " ++ y.content := by
  have hrendered : ∀ vs ⊆ args ++ more, ∃ texts, vs.mapM render = .ok texts := by
    intro vs hvs
    rcases mapM_cases render vs with ⟨-, htexts⟩ | ⟨v, hv, f, hf, -⟩
    · exact htexts
    · obtain ⟨text, htext⟩ := h v (hvs hv)
      cases hf.symm.trans htext
  obtain ⟨xs, hxs⟩ := hrendered args (List.subset_append_left args more)
  obtain ⟨ys, hys⟩ := hrendered more (List.subset_append_right args more)
  obtain ⟨x, hx, hxc⟩ := formatMessage_printed hxs
  obtain ⟨y, hy, hyc⟩ := formatMessage_printed hys
  have hzs : (args ++ more).mapM render = .ok (xs ++ ys) := by
    rw [List.mapM_append, hxs, hys]
    rfl
  obtain ⟨z, hz, hzc⟩ := formatMessage_printed hzs
  refine ⟨x, y, z, hx, hy, hz, ?_⟩
  rw [hzc, hxc, hyc, List.map_append, String.intercalate_append_of_ne_nil]
  · simpa using rendered_ne_nil ha hxs
  · simpa using rendered_ne_nil hm hys

/-- The two ways of making a message. -/
theorem styles_compared (args : List Value) : ComparesStyles args where
  same := formatMessage_same
  filled _ := formatMessage_filled
  lost _ := formatMessage_lost
  unreportable _ _ h hf hinner := ⟨formatMessage_unreportable h hf hinner, formatMessage_unrendered h hf hinner⟩
  reported := formatMessage_reported
  quiet := formatMessage_quiet args
  appended := formatMessage_appended

/-- A template for an object whose display raises an error of value, which has no text itself. -/
def explodingArguments : List Value :=
  [.str "%s", .explosive "Exploding" "<exploding>" 0 (.error .value 0
    [.object { typeName := "BadStr", serial := 0, representation := "<badstr>", showing := .notText }] [])]

/-- The substitution fails with an error of value. Yet nothing is reported, and what fails then is something else
than without a template. -/
theorem mismatch_unreported :
    (∃ f, substitution? explodingArguments = some (.error f) ∧ f.isMismatch = true) ∧
      (formatMessage explodingArguments true).1 = none ∧
      (formatMessage explodingArguments true).2 ≠ (formatMessage explodingArguments false).2 := by
  refine ⟨⟨_, rfl, rfl⟩, rfl, ?_⟩
  intro h
  cases h

end ContextLog
