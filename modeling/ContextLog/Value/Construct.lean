import ContextLog.Failure.Message
/-!
# Making errors

Some kinds of errors do more with their arguments than keep them. A rejected level writes its
message and keeps the text; a panic keeps its message; a missing appender has a message of its own;
a system error takes its kind from its number and keeps the names of the files apart.
-/

namespace ContextLog.Value

/-- What is attached to a value that stands in the place of a file name. -/
private def fileNames (kind : ErrorKind) : List Value → Option (List Value)
  | [_, _, .none] | [_, _, .none, _] | [_, _, .none, _, _] => Option.none
  | [_, _, f] | [_, _, f, _] | [_, _, f, _, .none] => named f [f]
  | [_, _, f, _, g] => named f [f, g]
  | _ => Option.none
where
  /-- A number in this place counts characters for an error of a blocked channel. -/
  named (f : Value) (files : List Value) : Option (List Value) :=
    if kind = .blocking ∧ f.quantity?.isSome then Option.none else some files

/-- A system error. Of two to five arguments the first is a number that may give it a narrower kind,
and the third and the fifth are names of files. -/
def systemError (serial : Nat) (args : List Value) : Value :=
  if 2 ≤ args.length ∧ args.length ≤ 5 then
    let kind := ((args.head?.bind whole?).bind ErrorKind.ofErrorNumber?).getD .system
    match fileNames kind args with
    | some files => .error kind serial (args.take 2) files
    | Option.none => .error kind serial args []
  else .error .system serial args []

/-- Makes an error of a kind from its arguments. -/
def makeError (kind : ErrorKind) (serial : Nat) (args : List Value) : Except Failure Value :=
  match kind, args with
  | .system, args => .ok (systemError serial args)
  | .invalidLevel, [rejected] => do
    let shown ← rejected.shown
    return .error .invalidLevel serial [.str ("invalid level: " ++ shown)] [rejected]
  | .invalidLevel, [] => .error (.call (.missing "InvalidLevel.__init__" "text"))
  | .invalidLevel, args =>
    .error (.call (.extra "InvalidLevel.__init__" "2 positional arguments" (args.length + 1)))
  | .missingAppender, [] => .ok (.error kind serial [.str missingAppenderText] [])
  | .missingAppender, [message] => .ok (.error kind serial [message] [])
  | .missingAppender, args =>
    .error (.call (.extra "MissingAppender.__init__" "from 1 to 2 positional arguments"
      (args.length + 1)))
  | .panic, [message] => .ok (.error kind serial [message] [message])
  | .panic, [] => .error (.call (.missing "PanicError.__init__" "message"))
  | .panic, args =>
    .error (.call (.extra "PanicError.__init__" "2 positional arguments" (args.length + 1)))
  | kind, args => .ok (.error kind serial args [])

end ContextLog.Value
