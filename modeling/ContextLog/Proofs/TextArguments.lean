import ContextLog.Proofs.Lines
import ContextLog.Proofs.PrintStyle
/-!
# Entries that are made of texts

Texts can be put into a template, or they do not fit it in a way that formatting recovers from, so there is
always a message (`formatMessage_texts`). Fields whose keys and values are texts can always be put in order
and shown, so an entry of them has a line (`formatLine_texts`).
-/

namespace ContextLog

/-! ## Messages from texts -/

namespace Template

/-- The values that texts are. -/
abbrev ofTexts (ts : List String) : List Value := ts.map .str

theorem ofTexts_cons (t : String) (ts : List String) : ofTexts (t :: ts) = .str t :: ofTexts ts := rfl

/-- Texts can be shown, and they are no numbers. So formatting recovers if they are not put into a template. -/
theorem fill_texts_error {template : String} {ts : List String} {f : Failure}
    (hfill : fill template (ofTexts ts) = .error f) : f.IsRecoverable := by
  rcases fill_error hfill with h | ⟨v, hv, hshown⟩ | h
  · exact h
  · obtain ⟨t, -, rfl⟩ := List.mem_map.1 hv
    cases hshown
  · cases h with
    | argument hf hv h =>
      obtain ⟨t, -, rfl⟩ := List.mem_map.1 hv
      rcases h with ⟨negative, h⟩ | ⟨n, h, -⟩ <;> cases h
    | precision hf hd hn h hv ht =>
      obtain ⟨t, -, rfl⟩ := List.mem_map.1 hv
      cases ht

end Template

open Template

theorem render_texts (ts : List String) : (ofTexts ts).mapM render = .ok (ts.map Text.ofString) := by
  induction ts with
  | nil => rfl
  | cons t ts ih =>
    rw [ofTexts_cons, List.mapM_cons, ih]
    rfl

/-- A message can be made from texts. -/
theorem formatMessage_texts (first : String) (ts : List String) (templated : Bool) :
    ∃ msg, (formatMessage (ofTexts (first :: ts)) templated).2 = .ok msg := by
  obtain ⟨msg, hprinted, -⟩ := formatMessage_printed (render_texts (first :: ts))
  cases templated with
  | false => exact ⟨msg, congrArg Prod.snd hprinted⟩
  | true =>
    cases ts with
    | nil => exact ⟨_, rfl⟩
    | cons t ts =>
      have hsub : substitution? (ofTexts (first :: t :: ts)) = some (fill first (ofTexts (t :: ts))) := rfl
      cases hfill : fill first (ofTexts (t :: ts)) with
      | ok s => exact ⟨.ofString s, congrArg Prod.snd (formatMessage_filled (hsub.trans (congrArg some hfill)))⟩
      | error f =>
        rw [hfill] at hsub
        obtain ⟨mismatch, -, hmessage⟩ := formatMessage_recovered hsub (fill_texts_error hfill)
        exact ⟨msg, by rw [hmessage]; exact congrArg Prod.snd hprinted⟩

/-! ## Lines of texts -/

/-- An entry whose key and value are texts. -/
def IsTextEntry (e : Value × Value) : Prop := ∃ key value, e = (.str key, .str value)

theorem setEntry_texts {e : Value × Value} {es : List (Value × Value)} (he : IsTextEntry e)
    (h : ∀ e ∈ es, IsTextEntry e) : ∀ e' ∈ setEntry e.1 e.2 es, IsTextEntry e' := by
  induction es with
  | nil => exact List.forall_mem_singleton.2 he
  | cons d es ih =>
    obtain ⟨hd, hes⟩ := List.forall_mem_cons.1 h
    unfold setEntry
    split
    · obtain ⟨key, value, rfl⟩ := he
      obtain ⟨key', value', rfl⟩ := hd
      exact List.forall_mem_cons.2 ⟨⟨key', value, rfl⟩, hes⟩
    · exact List.forall_mem_cons.2 ⟨hd, ih hes⟩

theorem Fields.ofList_texts {es : List (Value × Value)} (h : ∀ e ∈ es, IsTextEntry e) :
    ∀ e ∈ (Fields.ofList es).entries, IsTextEntry e := by
  have hfold : ∀ f : Fields, (∀ e ∈ f.entries, IsTextEntry e) →
      ∀ e ∈ (f.setAll es).entries, IsTextEntry e := by
    induction es with
    | nil => exact fun f hf => hf
    | cons e es ih =>
      obtain ⟨he, hes⟩ := List.forall_mem_cons.1 h
      exact fun f hf => ih hes (f.set e.1 e.2) (setEntry_texts he hf)
  exact hfold .empty nofun

theorem formatLine_texts (l : Level) {f : Fields} (h : ∀ e ∈ f.entries, IsTextEntry e) (msg : Text) :
    ∃ line, formatLine (.level l) (.fields f) (.text msg) = .ok line := by
  have hkeys : Fields.HaveTextKeys f.entries := fun e he => by
    obtain ⟨key, value, rfl⟩ := h e he
    rfl
  have hvalues : ∀ e ∈ f.entries, ∃ shown, e.2.repr = .ok shown := fun e he => by
    obtain ⟨key, value, rfl⟩ := h e he
    exact ⟨_, rfl⟩
  obtain ⟨es, -, hline⟩ := formatLine_shown hkeys hvalues
  exact ⟨_, hline l msg⟩

end ContextLog
