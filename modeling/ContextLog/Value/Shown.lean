import ContextLog.Failure.Basic
import ContextLog.Decimal.Reader
import ContextLog.Decimal.Shortest
import ContextLog.Text.Quoted
/-!
# The text of a value

`Value.repr` writes a value so that its type can be seen: texts in quotes, collections in brackets
with the representations of their items, levels and records with their names. `Value.shown` is the
text for a reader, which differs for texts, levels, errors and objects with a display of their own.
Both fail on a whole number of more than 4300 digits, and a display may raise.
-/

namespace ContextLog

open Text

/-- A whole number in decimal digits. -/
def wholeText (n : Int) : Except Failure String :=
  let digits := Nat.toDigits 10 n.natAbs
  if Decimal.digitLimit < digits.length then .error .numeralTooLong
  else .ok ((if n < 0 then "-" else "") ++ String.ofList digits)

/-- The representation of a level. -/
def Level.repr (l : Level) : String := "<Level." ++ l.name ++ ": " ++ toString l.rank ++ ">"

namespace Value

/-- A list of representations between commas; a tuple of one item ends in a comma. -/
def tupleText : List String → String
  | [item] => "(" ++ item ++ ",)"
  | items => "(" ++ ", ".intercalate items ++ ")"

/-- The representation of a value. -/
def repr : Value → Except Failure String
  | .none => .ok "None"
  | .bool b => .ok (if b then "True" else "False")
  | .int n => wholeText n
  | .float x => .ok x.text
  | .text t => .ok (quoted t.content)
  | .bytes bs => .ok (quotedBytes bs)
  | .level l => .ok l.repr
  | .list items => do return "[" ++ ", ".intercalate (← reprItems items) ++ "]"
  | .tuple items => do return tupleText (← reprItems items)
  | .dict entries => do return "\x7b" ++ ", ".intercalate (← reprEntries entries) ++ "\x7d"
  | .record name members => do
    return name ++ "(" ++ ", ".intercalate (← reprMembers members) ++ ")"
  | .error kind _ args _ => do
    let args ← reprItems args
    match args with
    | [arg] => return kind.name ++ "(" ++ arg ++ ")"
    | _ => return kind.name ++ tupleText args
  | .object t => .ok t.representation
  | .explosive _ representation _ _ => .ok representation
where
  reprItems : List Value → Except Failure (List String)
    | [] => .ok []
    | v :: rest => do
      let s ← v.repr
      return s :: (← reprItems rest)
  reprEntries : List (Value × Value) → Except Failure (List String)
    | [] => .ok []
    | (k, v) :: rest => do
      let k ← k.repr
      let v ← v.repr
      return (k ++ ": " ++ v) :: (← reprEntries rest)
  reprMembers : List (String × Value) → Except Failure (List String)
    | [] => .ok []
    | (name, v) :: rest => do
      let v ← v.repr
      return (name ++ "=" ++ v) :: (← reprMembers rest)

/-- The representation of a mapping with these entries. -/
def reprDict (entries : List (Value × Value)) : Except Failure String := (Value.dict entries).repr

/-- What happens when a value is raised. -/
def raise (v : Value) : Failure := if v.isError then .raised v else .notAnError

/-- The text of a value for a reader. An error shows its arguments: the only one by itself, unless
it is a missing key, which is represented; a system error shows its number, its text and the files
concerned. -/
def shown : Value → Except Failure String
  | .text t => .ok t.display
  | .level l => .ok l.name
  | .error kind _ args attached =>
    match args with
    | [] => .ok ""
    | [arg] => if kind.isA .key then arg.repr else arg.shown
    | code :: reason :: rest =>
      if kind.isA .system && rest.length ≤ 3 then do
        let code ← code.shown
        let reason ← reason.shown
        let files ← repr.reprItems attached
        let place := if files.isEmpty then "" else ": " ++ " -> ".intercalate files
        return "[Errno " ++ code ++ "] " ++ reason ++ place
      else repr (.tuple (code :: reason :: rest))
  | .object t => match t.showing with
    | .representation => .ok t.representation
    | .text s => .ok s
    | .notText => .error .displayNotText
  | .explosive _ _ _ inner => .error inner.raise
  | v => v.repr

end Value

end ContextLog
