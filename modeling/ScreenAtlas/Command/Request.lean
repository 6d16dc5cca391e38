import ScreenAtlas.Command.Arguments

/-!
# Requests

What a user can ask the program for: to analyze a folder, or to show an analysis that
was kept before. How much is noted on the way can be asked for before and behind the
name of the command.
-/
namespace ScreenAtlas.Command

/-- The name of the program. -/
def programName : String := "screenflow"

/-- Asks for the help of a command. -/
def helpOption : OptionRule := { names := ["-h", "--help"], takes := .help }

/-- Asks for more notes. -/
def verboseOption : OptionRule := { names := ["-v", "--verbose"] }

/-- Asks for fewer notes. -/
def quietOption : OptionRule := { names := ["-q", "--quiet"] }

/-- The options of every command. -/
def commonOptions : List OptionRule := [helpOption, verboseOption, quietOption]

/-- The command that analyzes a folder. -/
def analyzeName : String := "analyze"

/-- The command that shows an analysis. -/
def showName : String := "show"

/-- The command line up to the name of the command. -/
def programLine : LineRule :=
  { program := programName
    options := commonOptions
    operand := .command "command" [analyzeName, showName] }

/-- The arguments of the command that analyzes. -/
def analyzeLine : LineRule :=
  { program := programName ++ " " ++ analyzeName
    options := commonOptions ++
      [{ names := ["--branch"], takes := .word }, { names := ["--limit"], takes := .number },
        { names := ["--store"], takes := .word }, { names := ["--json"] }]
    operand := .atMostOne "path" }

/-- The arguments of the command that shows. -/
def showLine : LineRule :=
  { program := programName ++ " " ++ showName
    options := commonOptions ++ [{ names := ["--store"], takes := .word, required := true }]
    operand := .one "analysis_id" }

/-- What the user asks for. -/
inductive Request where
  /-- Analyze a folder. -/
  | analyze (path branch : String) (limit : Option Int) (store : Option String) (json : Bool)
  /-- Show an analysis that was kept. -/
  | display (id store : String)
  deriving DecidableEq, Repr

/-- The name of the command of a request. -/
def Request.name : Request → String
  | analyze .. => analyzeName
  | display .. => showName

/-- A request and how much is to be noted on the way. -/
structure Order where
  verbose : Bool
  quiet : Bool
  request : Request
  deriving DecidableEq, Repr

/-- The request to analyze in some arguments. -/
def analyzeRequest (arguments : Arguments) : Request :=
  .analyze (arguments.operand.getD ".") ((arguments.value? "--branch").getD "main")
    ((arguments.value? "--limit").bind fun limit => Numeral.readInt? limit.toList)
    (arguments.value? "--store") (arguments.has "--json")

/-- The request to show in some arguments. -/
def displayRequest (arguments : Arguments) : Request :=
  .display (arguments.operand.getD "") ((arguments.value? "--store").getD "")

/-- Reads a command line. -/
def readOrder (line : List String) : Except Stop Order := do
  let outer ← readArguments programLine line
  let (inner, request) ←
    if outer.operand == some analyzeName then do
      let inner ← readArguments analyzeLine outer.rest
      pure (inner, analyzeRequest inner)
    else do
      let inner ← readArguments showLine outer.rest
      pure (inner, displayRequest inner)
  match outer.extras ++ inner.extras with
  | [] =>
    return {
      verbose := outer.has "--verbose" || inner.has "--verbose"
      quiet := outer.has "--quiet" || inner.has "--quiet"
      request }
  | extras => throw (.misuse programName ("unrecognized arguments: " ++ " ".intercalate extras))

end ScreenAtlas.Command
