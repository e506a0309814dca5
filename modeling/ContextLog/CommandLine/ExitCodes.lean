import ContextLog.CommandLine.Basic
import ContextLog.CommandLine.Reader
/-!
# Exit codes

Tools that run a command to an exit code: 0 if it comes to its end, 2 if it is used wrongly, and else a
number for the kind of the failure. With them and with a reader of command lines the program can be run.
-/

namespace ContextLog.CommandLine

/-- The exit code for an error of a kind; `number` is that of a system error. -/
def exitCodeOf (kind : ErrorKind) (number : Option Int) : Int :=
  if kind = .interrupt then 130
  else if kind.isA .brokenPipe then 141
  else match kind.isA .system, number with
    | true, some n => n
    | _, _ =>
      if kind.isA .fileNotFound then 2
      else if kind.isA .permission then 13
      else if kind.isA .fileExists then 17
      else if kind.isA .isADirectory then 21
      else if kind.isA .notADirectory then 20
      else if kind.isA .timeout then 110
      else if kind.isA .type || kind.isA .value then 22
      else 1

/-- The number of a system error that is made from two to five arguments. -/
def errorNumber? : Failure → Option Int
  | .raised (.error _ _ args _) =>
    if 2 ≤ args.length ∧ args.length ≤ 5 then args.head?.bind Value.whole? else none
  | _ => none

/-- The exit code for a failure. -/
def exitCode (f : Failure) : Int := exitCodeOf f.kind (errorNumber? f)

/-- The exit code of a command that has come to an end. -/
def Halt.exitCode : Halt → Int
  | .usage _ => 2
  | .failed f => CommandLine.exitCode f
  | .done => 0

/-- Tools for these codes. `interrupt` is a failure that takes the place of the whole run. Reports are not
written to the standard output. -/
def exitTools (interrupt : Option Failure) : ExitTools where
  run command := fun t =>
    match interrupt with
    | some failure => .error failure t
    | none => match command t with
      | .ok () t => .ok 0 t
      | .error halt t => .ok halt.exitCode t
  report _ _ := pure ()
  codeOf failure := pure (exitCode failure)

/-- The exit code of a command line, and the terminal after it. -/
def runMain (argv : List String) (restore : Bool) (interrupt : Option Failure) (t : Terminal) :
    Int × Terminal :=
  match mainWith reader (exitTools interrupt) argv restore t with
  | .ok code t => (code, t)
  | .error failure t => (exitCode failure, t)

end ContextLog.CommandLine
