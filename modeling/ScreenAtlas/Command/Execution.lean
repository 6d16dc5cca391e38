import ScreenAtlas.Analysis.Run
import ScreenAtlas.Command.Help
import ScreenAtlas.Log.Line
import ScreenAtlas.Record.Codec
import ScreenAtlas.Settings.File
import ScreenAtlas.Store.Folder

/-!
# Carrying out requests

A command line is carried out against a disk and gives what is printed, the notes
that are shown, how it ended, and the disk afterwards. Faults that have a wording are
reported in one line; others end the program as they are. How scripts and documents of
settings are read is left open: both readings are parameters.
-/
namespace ScreenAtlas.Command

open ScreenAtlas

/-- What surrounds a command: the disk and what else it depends on. -/
structure Surroundings where
  tree : FileTree
  /-- Where paths are read. -/
  here : Location
  /-- The folder that a tilde stands for. -/
  home : Option Location := none
  /-- The value of the variable that names a level. -/
  levelName : Option String := none
  /-- What version control prints as the revision of the repository. -/
  printed : Option String := none
  /-- What tells the analysis from all others. -/
  stamp : Analysis.Stamp

/-- How a command ended. -/
inductive Ending where
  /-- It did what was asked for. -/
  | done
  /-- It failed for a reason that is reported. -/
  | failed (message : String)
  /-- It was misused. -/
  | misused (message : String)
  /-- It broke off. -/
  | broken (fault : Fault)
  deriving DecidableEq, Repr

/-- The code with which the program ends. -/
def Ending.code : Ending → UInt8
  | done => 0
  | failed _ => 1
  | misused _ => 2
  | broken _ => 1

/-- What a command leaves behind. -/
structure Outcome where
  ending : Ending
  output : String := ""
  notes : List Note := []
  tree : FileTree

/-- The location of a path in which a leading tilde stands for the home folder. -/
def locate (surroundings : Surroundings) (path : String) : Except Fault Location :=
  if path.toList.any Location.isForbidden then .error .malformedPath
  else
    match Location.steps path with
    | [] => .ok (Location.resolve surroundings.here path)
    | first :: rest =>
      if first.toList.head? == some '~' && !Location.isAbsolute path then
        match first == "~", surroundings.home with
        | true, some home => .ok (rest.foldl Location.walk home)
        | _, _ => .error .unknownHome
      else .ok (Location.resolve surroundings.here path)

/-- The lines that sum up a result. -/
def summaryLines (result : Result) : List String :=
  let framework :=
    match result.framework.primary with
    | some name => if name.isEmpty then "unknown" else name
    | none => "unknown"
  ["Analysis " ++ result.analysisId ++ " at " ++ result.commit,
    "Framework: " ++ framework ++ " (confidence " ++ result.framework.confidence.twoPlaces ++ ")",
    "Screens (" ++ toString result.screens.length ++ "):"] ++
  (result.screens.map fun screen =>
    "  " ++ screen.path ++ "  " ++ screen.name ++ "  [" ++ screen.filePath ++ "] flows=" ++
      toString screen.flows.length) ++
  ["Flows: " ++ toString result.flows.length]

/-- The store in a folder that a user names. -/
def storeIn (surroundings : Surroundings) (directory : String) : FolderStore :=
  { tree := surroundings.tree, here := surroundings.here, directory }

/-- Keeps a record in a folder, if there is one; the outcome is the disk afterwards. -/
def keepRecord (surroundings : Surroundings) (store : Option String) (record : Record) :
    Except Fault FileTree :=
  match store with
  | none => .ok surroundings.tree
  | some directory => do
    return (← (storeIn surroundings directory).save record.analysisId record).tree

/-- The settings for a folder, with a limit that was asked for. -/
def settingsFor (documents : Yaml.Reading) (tree : FileTree) (root : Location)
    (limit : Option Int) : Except Fault Settings := do
  let settings := (← Settings.load documents tree [] root.text).settings
  match limit with
  | some fileLimit => return { settings with fileLimit }
  | none => return settings

/-- The checkout that a request analyzes. -/
def checkoutOf (surroundings : Surroundings) (root : Location) (settings : Settings) :
    Repository.Checkout :=
  { tree := surroundings.tree, repo := root.text, root, exclude := settings.excludePaths,
    printed := surroundings.printed }

/-- The files of a checkout that a request reads. -/
def filesRead (documents : Yaml.Reading) (surroundings : Surroundings) : Request → List Location
  | .display .. => []
  | .analyze path _ limit _ _ =>
    let found : Except Fault (List Location) := do
      let root ← locate surroundings path
      let settings ← settingsFor documents surroundings.tree root limit
      let listing ← (checkoutOf surroundings root settings).listing
      return (Analysis.selectPaths settings listing).map (Location.resolve root)
    match found with
    | .ok locations => locations
    | .error _ => []

/-- Carries out a request; the outcome is what is printed and the disk afterwards. -/
def carryOut (reading : Script.Reading) (documents : Yaml.Reading) (surroundings : Surroundings) :
    Request → Journal (String × FileTree)
  | .analyze path branch limit store json => do
    if limit.any (· < 0) then throw .negativeLimit
    let root ← liftExcept (locate surroundings path)
    let settings ← liftExcept (settingsFor documents surroundings.tree root limit)
    let provider := (checkoutOf surroundings root settings).provider
    let (result, tree) ←
      Analysis.run reading provider settings { repo := root.text, branch } surroundings.stamp
        (keepRecord surroundings store)
    let lines := if json then [Json.document (.object result.encode)] else summaryLines result
    return (linesText lines, tree)
  | .display id store => do
    let record ← (storeIn surroundings store).get id
    return (linesText [Json.document (.object record.encode)], surroundings.tree)

/-- How a command ended with a fault. -/
def endingOf (request : Request) (fault : Fault) : Ending :=
  match fault.message? with
  | some message => .failed (programName ++ " " ++ request.name ++ " failed: " ++ message)
  | none => .broken fault

/-- What is said at the end. -/
def Ending.text : Ending → String
  | done => ""
  | failed message => linesText [message]
  | misused message => message
  | broken fault => linesText [programName ++ ": " ++ fault.cause]

/-- Executes a command line. -/
def execute (reading : Script.Reading) (documents : Yaml.Reading) (surroundings : Surroundings)
    (line : List String) : Outcome :=
  let tree := surroundings.tree
  match readOrder line with
  | .error (.help program) => { ending := .done, output := helpText program, tree }
  | .error (.misuse program message) => { ending := .misused (misuseText program message), tree }
  | .ok order =>
    let threshold := Level.threshold order.verbose order.quiet surroundings.levelName
    let (outcome, notes) := (carryOut reading documents surroundings order.request).outcome
    let notes := shownNotes threshold notes
    match outcome with
    | .ok (output, tree) => { ending := .done, output, notes, tree }
    | .error fault => { ending := endingOf order.request fault, notes, tree }

end ScreenAtlas.Command
