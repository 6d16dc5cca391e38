import ScreenAtlas.Command.Option

/-!
# Arguments of a command line

A command line has options and one operand, which is a word or the name of a command
that takes everything behind it. Options and the operand may stand in any order.
Behind two hyphens nothing is an option. What belongs to neither is collected.
-/
namespace ScreenAtlas.Command

/-- What the operand of a command line is. -/
inductive OperandRule where
  /-- The name of a command, which takes all arguments behind it. -/
  | command (name : String) (choices : List String)
  /-- A word. -/
  | one (name : String)
  /-- A word that may be left out. -/
  | atMostOne (name : String)
  deriving DecidableEq, Repr

/-- What the command line of a program looks like. -/
structure LineRule where
  program : String
  options : List OptionRule
  operand : OperandRule
  deriving DecidableEq, Repr

/-- The arguments of a command line by what they are. -/
structure Arguments where
  /-- The options in the order in which they are given. -/
  given : List Given := []
  /-- The operand. -/
  operand : Option String := none
  /-- The arguments behind the name of a command. -/
  rest : List String := []
  /-- The arguments that belong to nothing. -/
  extras : List String := []
  deriving DecidableEq, Repr

namespace Arguments

/-- An option is switched on. -/
def has (arguments : Arguments) (name : String) : Bool :=
  arguments.given.any fun given => given.rule.names.contains name

/-- The argument of an option; the last one counts. -/
def value? (arguments : Arguments) (name : String) : Option String :=
  (arguments.given.reverse.find? fun given => given.rule.names.contains name).bind Given.argument

/-- One more argument that belongs to nothing. -/
def withExtra (arguments : Arguments) (extra : String) : Arguments :=
  { arguments with extras := arguments.extras ++ [extra] }

end Arguments

/-- An argument before it is known what it belongs to. -/
inductive Mark where
  | operand
  | option (rule : OptionRule) (name : String) (attached : Option Attached)
  | unknown
  | hyphens
  deriving DecidableEq, Repr

/-- Two hyphens, behind which nothing is an option. -/
def endOfOptions : String := "--"

/-- Marks every argument. -/
def markAll (rule : LineRule) : List String → Except Stop (List (String × Mark))
  | [] => .ok []
  | argument :: rest =>
    if argument == endOfOptions then
      .ok ((argument, .hyphens) :: rest.map fun argument => (argument, .operand))
    else do
      let mark ←
        match ← readArgument rule.program rule.options argument with
        | .operand => pure Mark.operand
        | .known option name attached => pure (Mark.option option name attached)
        | .unknown => pure Mark.unknown
      return (argument, mark) :: (← markAll rule rest)

/-- Takes an option with its argument. -/
def take (program : String) (arguments : Arguments) (given : Given) : Except Stop Arguments :=
  let taken := { arguments with given := arguments.given ++ [given] }
  match given.rule.takes, given.argument with
  | .help, _ => .error (.help program)
  | .number, some argument =>
    match Numeral.readInt? argument.toList with
    | some _ => .ok taken
    | none =>
      .error (.ofArgument program given.rule.title ("invalid int value: " ++ quote argument))
  | _, _ => .ok taken

/-- Takes options one after the other. -/
def takeAll (program : String) (arguments : Arguments) : List Given → Except Stop Arguments
  | [] => .ok arguments
  | given :: rest => do takeAll program (← take program arguments given) rest

/-- How far the reading of a command line has come. -/
structure Progress where
  arguments : Arguments := {}
  /-- The operand is taken. -/
  taken : Bool := false
  /-- The operand was taken just before. -/
  fresh : Bool := false
  /-- The option that waits for its argument. -/
  waiting : Option OptionRule := none

/-- An option has no argument. -/
def missingArgument (program : String) (rule : OptionRule) : Stop :=
  .ofArgument program rule.title "expected one argument"

/-- A word is the name of no command. -/
def unknownCommand (program name : String) (choices : List String) (word : String) : Stop :=
  .ofArgument program name
    ("invalid choice: " ++ quote word ++ " (choose from " ++
      ", ".intercalate (choices.map quote) ++ ")")

/-- Gives each marked argument its place. -/
def sort (rule : LineRule) (progress : Progress) :
    List (String × Mark) → Except Stop Arguments
  | [] =>
    match progress.waiting with
    | some option => .error (missingArgument rule.program option)
    | none => .ok progress.arguments
  | (argument, mark) :: rest =>
    let arguments := progress.arguments
    match progress.waiting, mark with
    | some option, .operand => do
      let arguments ← take rule.program arguments { rule := option, argument := some argument }
      sort rule { progress with arguments, waiting := none } rest
    | some option, _ => .error (missingArgument rule.program option)
    | none, .option option name attached => do
      let cluster ← clusterOf rule.program rule.options option name attached
      let arguments ← takeAll rule.program arguments cluster.given
      let arguments := { arguments with extras := arguments.extras ++ cluster.unknown.toList }
      sort rule { progress with arguments, fresh := false, waiting := cluster.waiting } rest
    | none, .unknown =>
      sort rule { progress with arguments := arguments.withExtra argument, fresh := false } rest
    | none, .operand =>
      if progress.taken then
        sort rule { progress with arguments := arguments.withExtra argument, fresh := false } rest
      else
        match rule.operand with
        | .command name choices =>
          if choices.contains argument then
            .ok { arguments with operand := some argument, rest := rest.map Prod.fst }
          else .error (unknownCommand rule.program name choices argument)
        | _ =>
          let arguments := { arguments with operand := some argument }
          sort rule { progress with arguments, taken := true, fresh := true } rest
    | none, .hyphens =>
      if progress.taken then
        let arguments := if progress.fresh then arguments else arguments.withExtra argument
        sort rule { progress with arguments, fresh := false } rest
      else
        match rule.operand, rest with
        | .command name choices, _ :: _ =>
          .error (unknownCommand rule.program name choices argument)
        | _, _ => sort rule progress rest

/-- The names of what has to be given and is not. -/
def missing (rule : LineRule) (arguments : Arguments) : List String :=
  let operand :=
    match rule.operand, arguments.operand with
    | .command name _, none => [name]
    | .one name, none => [name]
    | _, _ => []
  let options := rule.options.filter fun option =>
    option.required && !arguments.given.any fun given => given.rule == option
  operand ++ options.map OptionRule.title

/-- Reads the arguments of a command line. -/
def readArguments (rule : LineRule) (line : List String) : Except Stop Arguments := do
  let arguments ← sort rule {} (← markAll rule line)
  match missing rule arguments with
  | [] => return arguments
  | names =>
    throw (.misuse rule.program
      ("the following arguments are required: " ++ ", ".intercalate names))

end ScreenAtlas.Command
