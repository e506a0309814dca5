/-!
# Parameters of commands

A command declares its parameters, and a parser reads them off a command line. How options are written and what is
wrong with a command line is the parser's business; a command is called with the values of its parameters, and a
group of commands with the command that has been found.
-/

namespace ContextLog.CommandLine

/-- What is wrong with a command line. -/
inductive UsageFault
  /-- A value is refused, with the name of its parameter as a hint. -/
  | badParameter (message : String) (hint : Option String)
  | badOptionUsage
  | noSuchOption
  | noSuchCommand
  | missingParameter
  /-- A command line without anything in it. -/
  | noArguments
  | other
  deriving DecidableEq, Repr, Inhabited

/-- The name of a fault. -/
def UsageFault.name : UsageFault → String
  | badParameter _ _ => "BadParameter"
  | badOptionUsage => "BadOptionUsage"
  | noSuchOption => "NoSuchOption"
  | noSuchCommand => "NoSuchCommand"
  | missingParameter => "MissingParameter"
  | noArguments => "NoArgsIsHelpError"
  | other => "UsageError"

/-- A parameter that is given by options. -/
inductive Parameter
  /-- One of some words in any letter case; the last one that is given. -/
  | choice (name option : String) (words : List String) (default : String)
  /-- All texts that are given. -/
  | repeated (name option : String)
  /-- Which of two options is given last; off without them. -/
  | switch (name on off : String)
  /-- The option prints a line instead. -/
  | message (option line : String)
  deriving DecidableEq, Repr, Inhabited

/-- The parameters of a command. -/
structure Declaration where
  /-- The names of the arguments that have to be there. -/
  required : List String := []
  /-- The name of all the arguments behind them, if there may be some. -/
  rest : Option String := none
  parameters : List Parameter := []
  /-- The options that ask for help. -/
  help : List String := ["-h", "--help"]
  deriving DecidableEq, Repr, Inhabited

/-- The values of parameters by their names: those of choices and of required arguments, those of repeated options
and of the arguments behind, and those of switches. -/
structure Values where
  text : String → String
  texts : String → List String
  flag : String → Bool

/-- Why a parser does not go on. -/
inductive Stop
  | usage (fault : UsageFault)
  /-- The command line is answered by a line, or by help. -/
  | answered (line : Option String)
  deriving DecidableEq, Repr, Inhabited

/-- One of some commands, with the values of its group and its own arguments. -/
structure Found (names : List String) where
  values : Values
  command : Fin names.length
  args : List String

/-- What reads command lines. -/
structure Parser where
  /-- Finds the command behind the options of its group. -/
  find : Declaration → (names : List String) → List String → Except Stop (Found names)
  /-- Reads the arguments of a command. -/
  read : Declaration → List String → Except Stop Values

end ContextLog.CommandLine
