import Mathlib.Data.List.Forall2
import ContextLog.Proofs.Backends
import ContextLog.Proofs.PrintStyle
/-!
# Templates of placeholders

The simplest templates are texts with a place for an argument between any two of them. In such a template every
percent sign of a text is doubled (`Template.escape`), so that the reader takes nothing else for a directive. If
there is one argument for each place, then the message is the texts with the arguments between them; else the
template is shown as it was written, with the arguments behind it (`places_filled`).
-/

namespace ContextLog

variable {args : List Value} {parts : List String} {v : Value} {part : String}

namespace Template

/-- A text as it stands in a template: every percent sign is doubled. -/
def escape (cs : List Char) : List Char := cs.flatMap fun c => if c = '%' then ['%', '%'] else [c]

/-- The template of texts with a place between any two of them. -/
def placing (chunks : List String) : String :=
  .ofList (['%', 's'].intercalate (chunks.map fun chunk => escape chunk.toList))

/-- Texts with other ones in the places between them. -/
def interleave : List String → List String → String
  | chunk :: chunks, part :: parts => chunk ++ part ++ interleave chunks parts
  | chunks, [] => String.join chunks
  | [], _ => ""

/-! ## Reading a template of placeholders -/

theorem scan_placeholder (i : Nat) (cs : List Char) :
    scan .text i ('%' :: 's' :: cs) = .directive {} 's' (i + 1) :: scan .text (i + 2) cs := by
  simp [scan, Stage.step, afterFlag, Directive.flag?, afterWidth, afterPrecision, finish]

/-- A text that stands in a template is read as its own characters. -/
theorem scan_escape (i : Nat) (chunk cs : List Char) :
    scan .text i (escape chunk ++ cs) = chunk.map .literal ++ scan .text (i + (escape chunk).length) cs := by
  induction chunk generalizing i with
  | nil => rfl
  | cons c chunk ih =>
    by_cases hc : c = '%'
    · have hescape : escape (c :: chunk) = '%' :: '%' :: escape chunk := by simp [escape, hc]
      rw [hescape, List.cons_append, List.cons_append, scan_percent, ih, hc]
      simp [Nat.add_assoc, Nat.add_comm 2]
    · have hescape : escape (c :: chunk) = c :: escape chunk := by simp [escape, hc]
      rw [hescape, List.cons_append, scan_text i c _ hc, ih]
      simp [Nat.add_assoc, Nat.add_comm 1]

/-! ## Filling it -/

theorem fillPieces_literals (chunk : List Char) (ps : List Piece) (args : List Value) :
    fillPieces (chunk.map .literal ++ ps) args = (chunk ++ ·) <$> fillPieces ps args := by
  induction chunk with
  | nil =>
    rw [List.map_nil, List.nil_append]
    cases fillPieces ps args <;> rfl
  | cons c chunk ih =>
    rw [List.map_cons, List.cons_append, fillPieces, ih]
    cases fillPieces ps args <;> rfl

theorem fillPieces_text (i : Nat) (chunk cs : List Char) (args : List Value) :
    ∃ j, fillPieces (scan .text i (escape chunk ++ cs)) args = (chunk ++ ·) <$> fillPieces (scan .text j cs) args :=
  ⟨_, by rw [scan_escape, fillPieces_literals]⟩

theorem fillPieces_directive {d : Directive} {shape : Shape} {rest : List Value}
    (h : d.settle args = .ok (shape, v :: rest)) (conversion : Char) (i : Nat) (ps : List Piece) :
    fillPieces (.directive d conversion i :: ps) args = do
      let text ← shape.write conversion i v
      return text ++ (← fillPieces ps rest) := by
  rw [fillPieces, h]
  rfl

/-- A place writes its argument as that is shown, or fails as that does. -/
theorem write_place (v : Value) (i : Nat) : Shape.write {} 's' i v = String.toList <$> v.shown := by
  cases hv : v.shown with
  | error f => simp [Shape.write, Conversion.ofChar?, hv]
  | ok part => simp [Shape.write, Conversion.ofChar?, hv, Shape.text, Shape.pad]

/-- A place takes the next argument as it is shown. -/
theorem fillPieces_place (hv : v.shown = .ok part) (i : Nat) (ps : List Piece) (args : List Value) :
    fillPieces (.directive {} 's' i :: ps) (v :: args) = (part.toList ++ ·) <$> fillPieces ps args := by
  have hsettle : Directive.settle {} (v :: args) = .ok ({}, v :: args) := rfl
  rw [fillPieces_directive hsettle, write_place, hv]
  cases fillPieces ps args <;> rfl

/-- The fault of a template of placeholders with too few or too many arguments. -/
def misfit (places arguments : Nat) : Fault := if arguments < places then .tooFew else .leftover

theorem misfit_succ (places arguments : Nat) : misfit (places + 1) (arguments + 1) = misfit places arguments := by
  simp [misfit]

theorem misfit_isRecoverable (places arguments : Nat) :
    (Failure.template (misfit places arguments)).IsRecoverable := by
  unfold misfit
  split
  · exact Fault.isRecoverable (.inl rfl)
  · exact Fault.isRecoverable (.inl rfl)

/-- A template of placeholders takes one argument for each place. -/
theorem fillPieces_placing (first : String) (rest : List String)
    (hargs : List.Forall₂ (fun v part => Value.shown v = .ok part) args parts) (i : Nat) :
    fillPieces (scan .text i (placing (first :: rest)).toList) args =
      if args.length = rest.length then .ok (interleave (first :: rest) parts).toList
      else .error (.template (misfit rest.length args.length)) := by
  induction rest generalizing first args parts i with
  | nil =>
    have htemplate : (placing [first]).toList = escape first.toList ++ [] := by simp [placing]
    obtain ⟨j, hj⟩ := fillPieces_text i first.toList [] args
    rw [htemplate, hj]
    cases hargs with
    | nil => simp [scan, Stage.atEnd, fillPieces, interleave, String.join]
    | cons hv hrest => simp [scan, Stage.atEnd, fillPieces, misfit]
  | cons second rest ih =>
    have htemplate : (placing (first :: second :: rest)).toList =
        escape first.toList ++ '%' :: 's' :: (placing (second :: rest)).toList := by
      simp [placing, List.intercalate]
    obtain ⟨j, hj⟩ := fillPieces_text i first.toList ('%' :: 's' :: (placing (second :: rest)).toList) args
    rw [htemplate, hj, scan_placeholder]
    cases hargs with
    | nil => rfl
    | cons hv hrest =>
      rw [fillPieces_place hv, ih second hrest]
      simp only [List.length_cons, Nat.add_right_cancel_iff, misfit_succ]
      split
      · simp [interleave]
      · rfl

theorem fill_placing (first : String) (rest : List String)
    (hargs : List.Forall₂ (fun v part => Value.shown v = .ok part) args parts) :
    fill (placing (first :: rest)) args =
      if args.length = rest.length then .ok (interleave (first :: rest) parts)
      else .error (.template (misfit rest.length args.length)) := by
  unfold fill pieces
  rw [fillPieces_placing first rest hargs 0]
  split
  · simp
  · rfl

end Template

/-! ## Messages from such templates -/

open Template Dispatch

/-- A value that shows itself is rendered as it is shown. -/
theorem render_of_showsItself (hv : v.ShowsItself) (h : v.shown = .ok part) : render v = .ok (.ofString part) := by
  cases v with
  | text t =>
    have hshown : t.shown = none := hv
    simp only [Value.shown, Text.display, hshown, Option.getD_none, Except.ok.injEq] at h
    subst h
    obtain ⟨content, shown⟩ := t
    cases hshown
    rfl
  | _ =>
    simp only [render, h]
    rfl

theorem mapM_render (h : List.Forall₂ (fun v part => render v = .ok (.ofString part)) args parts) :
    args.mapM render = .ok (parts.map .ofString) := by
  induction h with
  | nil => rfl
  | cons hv hrest ih =>
    rw [List.mapM_cons, hv, ih]
    rfl

namespace Dispatch

theorem message_unreported {templated : Bool} {msg : Text} (h : formatMessage args templated = (none, .ok msg))
    (s : Store) : message args templated s = .ok msg s := by
  simp [message, h, Session.report, bind, EStateM.bind]

theorem message_reported {templated : Bool} {msg : Text} {mismatch : Mismatch}
    (h : formatMessage args templated = (some mismatch, .ok msg)) (s : Store) :
    message args templated s = .ok msg { s with journal := s.journal ++ [.mismatch mismatch] } := by
  simp [message, h, Session.report, bind, EStateM.bind]

end Dispatch

/-- The message of arguments behind a template of placeholders, and what is reported, from a store. The arguments
are rendered as `parts`. -/
structure Dispatch.FillsPlaces (chunks : List String) (args : List Value) (parts : List String) (s : Store) : Prop where
  /-- With nothing behind it the template is the message, as it was written. -/
  alone : args = [] → message (.str (placing chunks) :: args) true s = .ok (.ofString (placing chunks)) s
  /-- With an argument for each place the texts and the arguments are put together. -/
  filled : args ≠ [] → args.length + 1 = chunks.length →
    message (.str (placing chunks) :: args) true s = .ok (.ofString (interleave chunks parts)) s
  /-- With any other number of arguments the template is shown as it was written, with all of them behind it, and the
  mismatch is reported once. -/
  joined : args ≠ [] → args.length + 1 ≠ chunks.length →
    message (.str (placing chunks) :: args) true s = .ok (.ofString (" ".intercalate (placing chunks :: parts)))
      { s with journal := s.journal ++ [.mismatch ⟨.ofString (placing chunks), args.length,
        (misfit (chunks.length - 1) args.length).message⟩] }

theorem exists_shown (h : ∀ v ∈ args, v.ShowsItself ∧ ∃ part, v.shown = .ok part) :
    ∃ parts, List.Forall₂ (fun v part => v.ShowsItself ∧ v.shown = .ok part) args parts := by
  induction args with
  | nil => exact ⟨[], .nil⟩
  | cons v args ih =>
    obtain ⟨⟨hself, part, hv⟩, hrest⟩ := List.forall_mem_cons.1 h
    obtain ⟨parts, hparts⟩ := ih hrest
    exact ⟨part :: parts, .cons ⟨hself, hv⟩ hparts⟩

theorem formatMessage_parts (first : String) (hargs : args ≠ [])
    (h : List.Forall₂ (fun v part => render v = .ok (.ofString part)) args parts) :
    formatMessage (.str first :: args) false = (none, .ok (.ofString (" ".intercalate (first :: parts)))) := by
  have hrendered : (.str first :: args).mapM render = .ok ((first :: parts).map .ofString) :=
    mapM_render (.cons rfl h)
  have hcontents : ((first :: parts).map Text.ofString).map (·.content) = first :: parts := by
    simp [Function.comp_def, Text.ofString]
  cases args with
  | nil => contradiction
  | cons v args =>
    rw [formatMessage_joined, hrendered]
    simp only [joinTexts, Functor.map, Except.map, hcontents]

/-- A template of placeholders is filled exactly if there is one argument for each place. The arguments are any
values that can be shown, but for texts that show themselves as other ones. -/
theorem places_filled (first : String) (rest : List String)
    (hargs : ∀ v ∈ args, v.ShowsItself ∧ ∃ part, v.shown = .ok part) (s : Store) :
    ∃ parts, List.Forall₂ (fun v part => render v = .ok (.ofString part)) args parts ∧
      FillsPlaces (first :: rest) args parts s := by
  obtain ⟨parts, hparts⟩ := exists_shown hargs
  have hrender : List.Forall₂ (fun v part => render v = .ok (.ofString part)) args parts :=
    hparts.imp fun _ _ h => render_of_showsItself h.1 h.2
  have hfill := fill_placing first rest (hparts.imp fun _ _ h => h.2)
  have hsub (hne : args ≠ []) : substitution? (.str (placing (first :: rest)) :: args) = some _ :=
    (substitution?_of_ne_nil (.ofString (placing (first :: rest))) hne).trans (congrArg some hfill)
  refine ⟨parts, hrender, ⟨fun hnil => ?_, fun hne hlen => ?_, fun hne hlen => ?_⟩⟩
  · rw [hnil]
    exact message_unreported rfl s
  · apply message_unreported
    apply formatMessage_filled
    rw [hsub hne, if_pos (by simpa using hlen)]
  · apply message_reported
    have hmisfit := hsub hne
    rw [if_neg (by simpa using hlen)] at hmisfit
    obtain ⟨mismatch, hreports, hmessage⟩ := formatMessage_recovered hmisfit (misfit_isRecoverable _ _)
    have hmismatch : mismatch = ⟨.ofString (placing (first :: rest)), args.length,
        (misfit rest.length args.length).message⟩ := hreports.unique ⟨_, args, rfl, rfl, rfl, rfl⟩
    rw [hmessage, hmismatch, formatMessage_parts (placing (first :: rest)) hne hrender]
    rfl

/-- A text that looks like a place, and a number. -/
def deceivingArguments : List Value := [.str "%s", .int 3]

theorem places_filled_deceivingArguments :
    (∀ v ∈ deceivingArguments, v.ShowsItself ∧ ∃ part, v.shown = .ok part) ∧
      ∃ parts, List.Forall₂ (fun v part => render v = .ok (.ofString part)) deceivingArguments parts ∧
        FillsPlaces ["100%", "", "%"] deceivingArguments parts {} := by
  have hargs : ∀ v ∈ deceivingArguments, v.ShowsItself ∧ ∃ part, v.shown = .ok part := by
    intro v hv
    rcases List.mem_pair.1 hv with rfl | rfl
    · exact ⟨rfl, _, rfl⟩
    · exact ⟨trivial, _, rfl⟩
  exact ⟨hargs, places_filled "100%" ["", "%"] hargs {}⟩

/-- What is put into a template is not read again. -/
example : formatMessage [.str "%%%s%s%%", .str "%s", .int 3] true = (none, .ok (.ofString "%%s3%")) := by rfl

end ContextLog
