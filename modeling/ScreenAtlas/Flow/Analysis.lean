import ScreenAtlas.Flow.CallGraph
import ScreenAtlas.Flow.Event
import ScreenAtlas.Screen.Basic
import ScreenAtlas.Script.FileKind

/-!
# Flows of a file and of a run

The lines of a file are always searched. A script that parses refines what was
found: its events replace the spelled ones if there are any, and its handler
functions learn what they call. Afterwards the flows of a run are handed to the
screens that come from the same file.
-/
namespace ScreenAtlas.Flow

open ScreenAtlas.Script

/-- The spelled flows of a file refined by its tree. -/
def refine (parsed : Parsed) (path content : String) (flows : List Flow) : List Flow :=
  let replaced :=
    match events parsed path content with
    | [] => flows
    | events => (flows.filter fun (flow : Flow) => flow.kind != uiEvent) ++ events
  unique (byLine (replaced.map (withCalls (callGraph parsed))))

/-- The flows of a file, given its tree if it parses. -/
def ofParsed (parsed : Option Parsed) (path content : String) : List Flow :=
  let flows := spelled path content
  match parsed with
  | none => flows
  | some parsed => refine parsed path content flows

/-- The flows of a file in the order of their lines. -/
def ofFile (reading : Reading) (path content : String) : List Flow :=
  ofParsed (if isScript path then reading.parsed? (dialectOf path) content else none) path content

/-- The identifiers of the flows of one file. -/
def idsOf (file : String) (flows : List Flow) : List String :=
  (flows.filter fun flow => flow.file == file).map Flow.id

/-- Screens with the flows of their files, stamped with a revision. -/
def assign (screens : List Screen) (flows : List Flow) (revision : String) : List Screen :=
  screens.map fun screen =>
    { screen with
      flows := idsOf screen.filePath flows
      lastAnalyzedCommit := .text revision
      screenshotStatus := .text "none" }

end ScreenAtlas.Flow
