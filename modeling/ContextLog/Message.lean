import ContextLog.Template.Fill
/-!
# Messages

The arguments of a log call become one message. A single argument is shown as it is. A text with
arguments behind it is a template for them; if they do not fit, and for anything else in front, all
of them are shown with single spaces between.

`formatMessage` is a function: besides the message it gives the mismatch to report, if there was one.
-/

namespace ContextLog

/-- The arguments of a template did not fit it. -/
structure Mismatch where
  template : Text
  arguments : Nat
  error : String
  deriving Repr, Inhabited

/-- A text that shows itself as it is. -/
def Text.ofString (s : String) : Text := { content := s }

/-- One argument as text. A text stays what it is. -/
def render : Value → Except Failure Text
  | .text t => .ok t
  | v => do return .ofString (← v.shown)

/-- Texts with single spaces between. -/
def joinTexts (parts : List Text) : Text := .ofString (" ".intercalate (parts.map (·.content)))

/-- The rendered arguments behind a first text, with single spaces between. -/
def printStyle (first : Text) (rest : List Value) : Except Failure Text := do
  return joinTexts (first :: (← rest.mapM render))

/-- Is the value a text? -/
def Value.isText : Value → Bool
  | .text _ => true
  | _ => false

/-- The message of an argument list, and the mismatch to report. Only failures of type and of value
count as a mismatch; any other one leaves the template. -/
def formatMessage (args : List Value) (templated : Bool) : Option Mismatch × Except Failure Text :=
  match args with
  | [] => (none, .ok (.ofString ""))
  | first :: rest =>
    match render first with
    | .error failure => (none, .error failure)
    | .ok text =>
      if rest.isEmpty then (none, .ok text)
      else if first.isText && templated then
        match Template.fill text.content rest with
        | .ok s => (none, .ok (.ofString s))
        | .error failure =>
          if failure.isMismatch then
            match failure.message with
            | .ok error => (some ⟨text, rest.length, error⟩, printStyle text rest)
            | .error inner => (none, .error inner)
          else (none, .error failure)
      else (none, printStyle text rest)

end ContextLog
