import ContextLog.Fields.Basic
import ContextLog.Decimal.Reader
import ContextLog.Text.Case
/-!
# Settings from the environment

Variables whose names start with a prefix are settings: the rest of the name in small letters, and
the value, read as a truth value, as nothing, as a number, or else kept as text. A later variable of
the same setting wins.
-/

namespace ContextLog

/-- Variables with their texts, in order. -/
abbrev Environment := List (String × String)

namespace Environment

/-- The prefix of the variables that set this library up. -/
def settingsPrefix : String := "LIB_CONTEXT_LOG"

/-- The prefix that belongs to a project name: hyphens become underscores, letters capital. -/
def prefixFor (slug : String) : String :=
  Text.upper (String.ofList (slug.toList.map fun c => if c = '-' then '_' else c))

/-- A row of digits. -/
def isDigits (cs : List Char) : Bool := !cs.isEmpty && cs.all Text.isDigitLike

/-- Is the text written as a whole number, in digits behind an optional minus sign? -/
def looksWhole : List Char → Bool
  | '-' :: rest => isDigits rest
  | cs => isDigits cs

/-- The value that a text stands for. A text that looks like a number and cannot be read as one is
kept. -/
def coerce (text : String) : Value :=
  let word := Text.lower text
  if word = "true" then .bool true
  else if word = "false" then .bool false
  else if word = "null" ∨ word = "none" then .none
  else if looksWhole text.toList then
    match Decimal.readWhole text.toList with
    | some n => .int n
    | none => .str text
  else
    match Decimal.readDouble text with
    | some x => .float x
    | none => .str text

/-- The prefix with the underscore that ends it. An empty prefix stays empty. -/
def withSeparator (pre : List Char) : List Char :=
  if pre = [] ∨ pre.getLast? = some '_' then pre else pre ++ ['_']

/-- What follows a prefix in a name, unless nothing does. -/
def settingName? (pre name : List Char) : Option String :=
  if pre.isPrefixOf name then
    match name.drop pre.length with
    | [] => none
    | rest => some (Text.lower (String.ofList rest))
  else none

/-- The settings under a prefix. -/
def load (environment : Environment) (pre : String) : Fields :=
  let pre := withSeparator pre.toList
  environment.foldl (fun settings (name, text) =>
    match settingName? pre name.toList with
    | some key => settings.set (.str key) (coerce text)
    | none => settings) .empty

end Environment

end ContextLog
