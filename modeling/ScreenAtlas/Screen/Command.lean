import ScreenAtlas.Screen.State

/-!
# Screens of command trees

A command-line application registers its commands with calls. A command that is
registered with a variable that holds another command is its subcommand. Every
chain of commands is a screen.
-/
namespace ScreenAtlas.Screen

open ScreenAtlas.Text

/-- A registered command: the variable it is registered with, if there is one, and
its declaration. -/
structure Registration where
  receiver : Option (List Char)
  declaration : List Char

/-- A call that registers a command, from the point on. -/
def registering? (text : List Char) : Option (List Char × List Char) := do
  let rest ← literal? ".command" text
  let rest ← pastMark? '(' rest
  quoted? rest

/-- A name that a variable can have. -/
def variableName? (text : List Char) : Option (List Char × List Char) :=
  nameOf? (fun c => isWord c || c == '$') text

/-- A word starts or ends between two characters. -/
def wordBoundary (before : Option Char) (text : List Char) : Bool :=
  outsideWord before != outsideWord text.head?

/-- A call that registers a command, with its receiver if that has a name. -/
def registration? : Recogniser Registration := fun before text =>
  let received := if wordBoundary before text then do
      let (receiver, rest) ← variableName? text
      let (declaration, rest) ← registering? (skipBlanks rest)
      some (⟨some receiver, declaration⟩, rest)
    else none
  match received with
  | some found => some found
  | none => (registering? text).map fun (declaration, rest) => (⟨none, declaration⟩, rest)

/-- A declaration of a variable up to the end of a text. -/
def assignmentTail? : Recogniser (List Char) := fun _ text => do
  let (_, rest) ← oneOf? ["const", "let", "var"] text
  let (_, rest) ← run? isBlank rest
  let (name, rest) ← variableName? rest
  match pastMark? '=' rest with
  | some [] => some (name, [])
  | _ => none

/-- The variable that the result of a call is assigned to on its line, given what
precedes the call. -/
def assignedTo? (preceding : List Char) : Option (List Char) :=
  let line := (preceding.reverse.takeWhile (· != '\n')).reverse
  (first? assignmentTail? line).map Hit.value

/-- A character of a command's name. -/
def isCommandChar (c : Char) : Bool := isWord c || c == ':' || c == '-'

/-- The name in a command's declaration: its first word. -/
def commandName? (declaration : List Char) : Option (List Char) :=
  match words declaration with
  | name :: _ => if name.all isCommandChar then some name else none
  | [] => none

/-- The commands found so far, and the chain that each variable holds. -/
structure CommandTable where
  chains : List (List (List Char)) := []
  holders : List (List Char × List (List Char)) := []

/-- Takes in a registered command. -/
def CommandTable.register (content : List Char) (table : CommandTable)
    (hit : Hit Registration) : CommandTable :=
  match commandName? hit.value.declaration with
  | none => table
  | some name =>
    let parent := (hit.value.receiver.bind fun receiver => table.holders.lookup receiver).getD []
    let chain := parent ++ [name]
    let holders :=
      match assignedTo? (content.take hit.start) with
      | some name => (name, chain) :: table.holders
      | none => table.holders
    let chains := if table.chains.contains chain then table.chains else table.chains ++ [chain]
    { chains, holders }

/-- The chains of commands that a source registers. -/
def commandChains (content : List Char) : List (List (List Char)) :=
  ((hits registration? content).foldl (CommandTable.register content) {}).chains

/-- The words of a chain of commands. -/
def chainWords (chain : List (List Char)) : List (List Char) :=
  chain.flatMap (fields fun c => c == '-' || c == ':' || isBlank c)

/-- The screen of a chain of commands. -/
def ofChain (binary : String) (file : SourceFile) (chain : List (List Char)) : Screen :=
  let parts := binary :: chain.map String.ofList
  { id := "screen:cli:" ++ ":".intercalate parts
    name := " ".intercalate ((chainWords chain).map fun word =>
      Route.capitalize (String.ofList word))
    path := Route.normalize ("/" ++ "/".intercalate parts)
    filePath := file.path
    kind := "cli-command"
    framework := "cli-commander" }

/-- Words that only occur where commands are registered. -/
def registrationMarkers : List String := ["program.command(", "cmd.command(", "new Command("]

/-- The screens of the commands that one file registers. -/
def commandsOfFile (binary : String) (file : SourceFile) : List Screen :=
  let content := file.content.toList
  if Script.isScript file.path && registrationMarkers.any fun marker => holds marker content then
    (commandChains content).map (ofChain binary file)
  else []

/-- The screens of the commands of an executable. -/
def commands (binary : String) (files : List SourceFile) : List Screen :=
  (files.flatMap (commandsOfFile binary)).foldl addPath []

end ScreenAtlas.Screen
