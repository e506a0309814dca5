import ContextLog.CommandLine.Pairs
/-!
# A reader of command lines

Options and other arguments may be mixed behind a command. An option that takes a value has it behind
an equals sign or as the next argument, whatever that looks like; one letter options may stand
together behind one hyphen; two hyphens alone end the options. Reading gives the options in the order
in which they stand, and the other arguments apart; from these the values of the parameters are taken.
-/

namespace ContextLog.CommandLine

/-- An option that a command knows. -/
structure OptionSpec where
  name : String
  takesValue : Bool := false
  deriving DecidableEq, Repr, Inhabited

/-- An option as it is given. -/
structure GivenOption where
  name : String
  value : String := ""
  deriving DecidableEq, Repr, Inhabited

/-- A command line that has been read. -/
structure Arguments where
  options : List GivenOption := []
  positional : List String := []
  deriving DecidableEq, Repr, Inhabited

/-! ## Options -/

/-- What an argument that starts with a hyphen gives: options, and the option that still waits for
its value. -/
structure OptionArgument where
  options : List GivenOption := []
  waiting : Option String := none
  deriving DecidableEq, Repr, Inhabited

/-- One letter options that stand together. -/
def readLetters (specs : List OptionSpec) : List Char → Except UsageFault (List GivenOption)
  | [] => .ok []
  | c :: rest => do
    let name := String.ofList ['-', c]
    if specs.any (·.name = name) then return { name } :: (← readLetters specs rest)
    else throw .noSuchOption

/-- An option with more than one letter in its name. -/
def findLong (specs : List OptionSpec) (name : String) : Option OptionSpec :=
  if name.length ≤ 2 then none else specs.find? (·.name = name)

/-- Reads an argument that starts with a hyphen. -/
def readOptionArgument (specs : List OptionSpec) (cs : List Char) :
    Except UsageFault OptionArgument :=
  let (name, value) := splitAtEquals cs
  let name := String.ofList name
  match findLong specs name, value with
  | some spec, none =>
    .ok (if spec.takesValue then { waiting := some name } else { options := [{ name }] })
  | some spec, some value =>
    if spec.takesValue then .ok { options := [{ name, value := String.ofList value }] }
    else .error .badOptionUsage
  | none, _ =>
    match cs with
    | '-' :: '-' :: _ => .error .noSuchOption
    | _ => do return { options := ← readLetters specs cs.tail }

/-- Is an argument an option? -/
def isOption (cs : List Char) : Bool := cs.head? = some '-' && cs.length > 1

/-- Reads arguments; `waiting` is the option whose value comes next. Without mixing, the first
argument that is no option ends them. -/
def readArguments (specs : List OptionSpec) (mixed : Bool) (waiting : Option String) :
    List String → Except UsageFault Arguments
  | [] => if waiting.isSome then .error .badOptionUsage else .ok {}
  | arg :: rest =>
    match waiting with
    | some name => do
      let read ← readArguments specs mixed none rest
      return { read with options := { name, value := arg } :: read.options }
    | none =>
      if arg = "--" then .ok { positional := rest }
      else if isOption arg.toList then do
        let here ← readOptionArgument specs arg.toList
        let read ← readArguments specs mixed here.waiting rest
        return { read with options := here.options ++ read.options }
      else if mixed then do
        let read ← readArguments specs mixed none rest
        return { read with positional := arg :: read.positional }
      else .ok { positional := arg :: rest }

namespace Arguments

/-- The value of an option that was given last. -/
def last? (a : Arguments) (name : String) : Option String :=
  ((a.options.filter (·.name = name)).getLast?).map (·.value)

/-- All values of an option. -/
def all (a : Arguments) (name : String) : List String :=
  (a.options.filter (·.name = name)).map (·.value)

/-- Which of two switches was given last; the second one if neither was. -/
def switch (a : Arguments) (on off : String) : Bool :=
  ((a.options.filter fun o => o.name = on || o.name = off).getLast?.map (·.name)) = some on

/-- The names of the options given, each where it first stands. -/
def order (a : Arguments) : List String :=
  a.options.foldl (fun names o => if names.contains o.name then names else names ++ [o.name]) []

end Arguments

/-! ## Values -/

namespace Parameter

/-- The options of a parameter. -/
def specs : Parameter → List OptionSpec
  | choice _ option _ _ | repeated _ option => [{ name := option, takesValue := true }]
  | switch _ on off => [{ name := on }, { name := off }]
  | message option _ => [{ name := option }]

/-- The word that a value of a choice stands for. Folding the case of a character above the seven-bit
ones gives no part of a word that is compared with, so that only plain letters are folded. -/
def readChoice (words : List String) (value : String) : Except UsageFault String :=
  match words.find? (· = value.map Char.toLower) with
  | some word => .ok word
  | none =>
    .error (.badParameter
      (Text.quoted value ++ " is not one of " ++ ", ".intercalate (words.map Text.quoted) ++ ".") none)

/-- Refuses a value that is none of the words, if an option of the name is a choice. -/
def check (name : String) (value : String) : Parameter → Except UsageFault Unit
  | choice _ option words _ =>
    if option = name then (readChoice words value).map fun _ => () else .ok ()
  | _ => .ok ()

end Parameter

namespace Declaration

/-- All options of a command. -/
def specs (d : Declaration) : List OptionSpec :=
  d.parameters.flatMap Parameter.specs ++ d.help.map fun name => { name := name }

/-- How an option other than those for values is answered: by its line, or by help. -/
def answer? (d : Declaration) (o : GivenOption) : Option (Option String) :=
  if d.help.contains o.name then some none
  else d.parameters.findSome? fun
    | .message option line => if option = o.name then some (some line) else none
    | _ => none

/-- The value of a choice or of a required argument. -/
def textOf (d : Declaration) (read : Arguments) (name : String) : String :=
  match d.required.idxOf? name with
  | some i => read.positional.getD i ""
  | none => (d.parameters.findSome? fun
    | .choice n option words default => if n = name then
        some ((((read.last? option).bind fun v => (Parameter.readChoice words v).toOption)).getD default)
      else none
    | _ => none).getD ""

/-- The values of a repeated option or of the arguments behind the required ones. -/
def textsOf (d : Declaration) (read : Arguments) (name : String) : List String :=
  if d.rest = some name then read.positional.drop d.required.length
  else (d.parameters.findSome? fun
    | .repeated n option => if n = name then some (read.all option) else none
    | _ => none).getD []

/-- The value of a switch. -/
def flagOf (d : Declaration) (read : Arguments) (name : String) : Bool :=
  (d.parameters.findSome? fun
    | .switch n on off => if n = name then some (read.switch on off) else none
    | _ => none).getD false

/-- The values of the parameters. -/
def values (d : Declaration) (read : Arguments) : Values where
  text := d.textOf read
  texts := d.textsOf read
  flag := d.flagOf read

/-- Checks the arguments of a command: the choices in the order in which they stand, and then how many other
arguments there are. -/
def check (d : Declaration) (read : Arguments) : Except UsageFault Unit := do
  read.order.forM fun name => d.parameters.forM (Parameter.check name ((read.last? name).getD ""))
  if read.positional.length < d.required.length then throw .missingParameter
  if d.rest.isNone ∧ d.required.length < read.positional.length then throw .other

end Declaration

/-! ## Command lines -/

/-- What goes wrong with arguments. -/
def refused {α : Type} (r : Except UsageFault α) : Except Stop α := r.mapError .usage

/-- Reads the arguments of a command, unless they are answered. -/
def answered (d : Declaration) (mixed : Bool) (args : List String) : Except Stop Arguments := do
  let read ← refused (readArguments d.specs mixed none args)
  match read.options.findSome? d.answer? with
  | some line => throw (.answered line)
  | none => return read

/-- Reads the arguments of a command. -/
def readCommand (d : Declaration) (args : List String) : Except Stop Values := do
  let read ← answered d true args
  refused (d.check read)
  return d.values read

/-- Finds the command behind the options of its group. -/
def findCommand (d : Declaration) (names argv : List String) : Except Stop (Found names) := do
  if argv.isEmpty then throw (.usage .noArguments)
  let read ← answered d false argv
  match read.positional with
  | [] => throw (.usage .other)
  | name :: args =>
    match names.finIdxOf? name with
    | some command => return { values := d.values read, command, args }
    | none =>
      -- what looks like an option behind the end of the options is looked at once more
      let _ ← answered d false (name :: args)
      throw (.usage .noSuchCommand)

/-- The reader. -/
def reader : Parser where
  find := findCommand
  read := readCommand

end ContextLog.CommandLine
