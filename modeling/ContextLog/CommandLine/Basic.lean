import ContextLog.CommandLine.Pairs
import ContextLog.Emit
/-!
# The command line

Commands to look at the levels, to check how a word is read as a level, to send an entry to the
standard output, and to fail on request. The root command sets whether errors are shown with their
traces; `mainWith` runs a command line to its exit code and puts those settings back. How a command
line is read and how a run becomes an exit code is left to a parser and to the tools for it.
-/

namespace ContextLog.CommandLine

/-- What the installation says about itself. -/
structure Distribution where
  name : String := "lib_context_log"
  version : String := "0.1.0"
  requires : String := ">=3.10"
  summary : String := "Context-aware logging facade with pluggable appenders"
  deriving DecidableEq, Repr, Inhabited

/-- How errors are shown. -/
structure TraceSettings where
  traceback : Bool := false
  color : Bool := false
  deriving DecidableEq, Repr, Inhabited

/-- What a command works on. -/
structure Terminal where
  store : Store := {}
  settings : TraceSettings := {}
  distribution : Option Distribution := some {}
  /-- The version that was found when the program started. -/
  startVersion : String := "0.1.0"
  deriving Repr, Inhabited

/-- Why a command does not run to its end. -/
inductive Halt
  | usage (fault : UsageFault)
  | failed (failure : Failure)
  /-- All that was asked for has been printed. -/
  | done
  deriving Repr, Inhabited

/-- A command at work. -/
abbrev Run := EStateM Halt Terminal

/-- What may be given wrongly. -/
def checked {α : Type} (r : Except UsageFault α) : Run α :=
  match r with
  | .ok a => pure a
  | .error fault => throw (.usage fault)

/-- Calls on the store, from a command. -/
def onStore {α : Type} (x : Session α) : Run α := fun t =>
  match x t.store with
  | .ok a s => .ok a { t with store := s }
  | .error f s => .error (.failed f) { t with store := s }

/-- Prints a line to the standard output. -/
def echo (line : String) : Run Unit :=
  modify fun t =>
    { t with store := { t.store with stdout := t.store.stdout.map fun c =>
      { c with text := c.text ++ line ++ "\n" } } }

/-- What a parser has read. -/
def parsed {α : Type} (r : Except Stop α) : Run α :=
  match r with
  | .ok a => pure a
  | .error (.usage fault) => throw (.usage fault)
  | .error (.answered none) => throw .done
  | .error (.answered (some line)) => do
    echo line
    throw .done

/-- The version that is installed, as far as it is known. -/
def Terminal.version (t : Terminal) : String := (t.distribution.map (·.version)).getD "0.0.0"

/-! ## Commands -/

/-- A command: what it declares, and what it does with the values of its parameters. -/
structure Command where
  name : String
  declaration : Declaration := {}
  run : Values → Run Unit

/-- Prints what the installation says about itself. -/
def info : Run Unit := do
  match (← get).distribution with
  | none => echo "lib_context_log (metadata unavailable)"
  | some d =>
    echo ("Info for " ++ d.name ++ ":")
    echo ("  Version         : " ++ d.version)
    echo ("  Requires-Python : " ++ d.requires)
    unless d.summary.isEmpty do echo ("  Summary         : " ++ d.summary)

/-- Prints the levels from most to least severe. -/
def levels : Run Unit := Level.all.forM fun l => echo l.name

/-- Prints the level that a word names. -/
def parseLevel (text : String) : Run Unit :=
  match Level.ofWord? text with
  | some l => echo l.name
  | none => throw (.usage (.badParameter ("invalid level: " ++ text) (some "TEXT")))

/-- What the command that sends an entry is asked to do. -/
structure EmitRequest where
  level : String := "info"
  threshold : String := "debug"
  pairs : List String := []
  println : Bool := false
  message : String
  args : List String := []
  deriving DecidableEq, Repr, Inhabited

/-- Sends an entry to the standard output. -/
def sendRequest (r : EmitRequest) : Run Unit := do
  let c ← onStore do
    let threshold ← Session.lift (Level.parse (.str r.threshold))
    let a ← Session.newAppender .console
    Session.newContext { level := .level threshold, appender := some a }
  let level ← onStore (Session.lift (Level.parse (.str r.level)))
  let fields ← checked (readPairs r.pairs)
  onStore do
    let m ← Session.newMapping fields
    send { context := some c, level := .level level, fields := .live m,
           args := (r.message :: r.args).map .str, templated := !r.println }

/-- The words that an option for a level takes. -/
def levelChoices : List String := Level.words.map (·.1)

/-- The parameters of the command that sends an entry. -/
def emitDeclaration : Declaration where
  required := ["message"]
  rest := some "args"
  parameters := [.choice "level" "--level" levelChoices "info",
    .choice "threshold" "--threshold" levelChoices "debug", .repeated "field_pairs" "--field",
    .switch "println" "--println" "--printf"]

/-- What the values of its parameters ask that command for. -/
def Values.emitRequest (v : Values) : EmitRequest where
  level := v.text "level"
  threshold := v.text "threshold"
  pairs := v.texts "field_pairs"
  println := v.flag "println"
  message := v.text "message"
  args := v.texts "args"

/-- The commands. -/
def commands : List Command :=
  [{ name := "info", run _ := info },
    { name := "levels", run _ := levels },
    { name := "parse-level", declaration := { required := ["text"] }, run v := parseLevel (v.text "text") },
    { name := "emit", declaration := emitDeclaration, run v := sendRequest v.emitRequest },
    { name := "fail", run _ := onStore (failOnPurpose none) }]

/-- The parameters of the root command, for a version of the program. -/
def rootDeclaration (version : String) : Declaration where
  parameters := [.message "--version" ("lib_context_log version " ++ version),
    .switch "traceback" "--traceback" "--no-traceback"]

/-- A command line whose command has been found. -/
structure Called where
  traceback : Bool
  command : Run Unit

/-- Reads the arguments of a command, and runs it. -/
def Command.call (command : Command) (parser : Parser) (args : List String) : Run Unit := do
  command.run (← parsed (parser.read command.declaration args))

/-- Finds the command of a command line. -/
def resolve (parser : Parser) (argv : List String) : Run Called := do
  let found ← parsed (parser.find (rootDeclaration (← get).startVersion) (commands.map (·.name)) argv)
  return { traceback := found.values.flag "traceback"
           command := (commands.get (found.command.cast (List.length_map _))).call parser found.args }

/-- Sets how errors are shown, first one setting and then the other. -/
def setTraces (traceback : Bool) : Run Unit := do
  modify fun t => { t with settings.traceback := traceback }
  modify fun t => { t with settings.color := traceback }

/-- The root command: its options, and the command behind them. -/
def root (parser : Parser) (argv : List String) : Run Unit := do
  let called ← resolve parser argv
  setTraces called.traceback
  called.command

/-! ## The program -/

/-- A run of the program itself, which may end by any failure. -/
abbrev Program := EStateM Failure Terminal

/-- What the program leaves to others: to run a command to an exit code, to report a failure with or without
its trace and up to some number of characters, and to find the exit code for a failure. -/
structure ExitTools where
  run : Run Unit → Program Int
  report : Bool → Nat → Program Unit
  codeOf : Failure → Program Int

/-- How many characters a failure is reported with. -/
def reportLimit (traceback : Bool) : Nat := if traceback then 10000 else 500

/-- Runs a command to its exit code, also when it ends by a failure. -/
def ExitTools.exitOf (tools : ExitTools) (command : Run Unit) : Program Int :=
  try
    tools.run command
  catch failure => do
    let traceback := (← get).settings.traceback
    tools.report traceback (reportLimit traceback)
    tools.codeOf failure

/-- Runs a command line to its exit code. The trace settings are put back unless they are to stay. -/
def mainWith (parser : Parser) (tools : ExitTools) (argv : List String) (restore : Bool) : Program Int := do
  let previous := (← get).settings
  try
    tools.exitOf (root parser argv)
  finally
    if restore then modify fun t => { t with settings := previous }

end ContextLog.CommandLine
