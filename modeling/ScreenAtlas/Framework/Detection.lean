import ScreenAtlas.Framework.Basic
import ScreenAtlas.Framework.Manifest
import ScreenAtlas.Framework.RouteFile
import ScreenAtlas.Number.Decimal

/-!
# Detecting frameworks

Three kinds of signals are looked at in turn: the dependencies of the manifest,
the places of files, and words in their texts. A signal adds its label once and
raises the confidence to its own.
-/
namespace ScreenAtlas.Framework

/-- A signal: a label and the confidence it gives, if any. -/
structure Signal where
  label : String
  confidence : Option Double

/-- A confidence in hundredths. -/
def hundredths (n : Nat) : Double := .ofDecimal false n (-2)

/-- The signals of the manifest's dependencies. -/
def dependencySignals : List (String × Signal) :=
  [("next", ⟨"next.js", some (hundredths 95)⟩),
    ("react", ⟨"react", none⟩),
    ("react-dom", ⟨"react", none⟩),
    ("react-router-dom", ⟨router, some (hundredths 85)⟩),
    ("react-router", ⟨router, some (hundredths 85)⟩),
    ("nuxt", ⟨nuxt, some (hundredths 95)⟩),
    ("commander", ⟨"cli-commander", some (hundredths 80)⟩)]

/-- Words that only occur where routes are declared. -/
def routerMarkers : List String := ["createBrowserRouter", "<Routes>", "<Route"]

/-- Words that only occur where commands are declared. -/
def commandMarkers : List String := ["program.command(", "cmd.command("]

/-- Some file holds one of the words. -/
def anyHolds (markers : List String) (files : List SourceFile) : Bool :=
  files.any fun file => markers.any fun marker => Text.holds marker file.content.toList

/-- The signals of the dependencies that are present. -/
def manifestSignals (dependencies : Manifest.Versions) : List Signal :=
  dependencySignals.filterMap fun (name, signal) =>
    if dependencies.any fun entry => entry.1 == name then some signal else none

/-- The signals of the places and texts of files. -/
def fileSignals (files : List SourceFile) : List Signal :=
  (if files.any fun file => (RouteFile.appRoute? file.path).isSome then
    [⟨"next.js", none⟩, ⟨appRouter, some (hundredths 95)⟩] else []) ++
  (if files.any fun file => (RouteFile.pagesRoute? file.path).isSome then
    [⟨"next.js", none⟩, ⟨pagesRouter, some (hundredths 95)⟩] else []) ++
  (if files.any fun file => (RouteFile.componentRoute? file.path).isSome then
    [⟨nuxt, some (hundredths 95)⟩] else []) ++
  (if anyHolds routerMarkers files then [⟨router, some (hundredths 85)⟩] else []) ++
  (if anyHolds commandMarkers files then [⟨"cli-commander", some (hundredths 80)⟩] else [])

/-- Takes in a signal. -/
def addSignal (framework : Framework) (signal : Signal) : Framework :=
  let detected :=
    if framework.detected.contains signal.label then framework.detected
    else framework.detected ++ [signal.label]
  { detected
    primary := detected.head?
    confidence :=
      match signal.confidence with
      | none => framework.confidence
      | some confidence => framework.confidence.larger confidence }

/-- The frameworks of some files whose manifest has the given dependencies. -/
def ofSignals (dependencies : Manifest.Versions) (files : List SourceFile) : Framework :=
  (manifestSignals dependencies ++ fileSignals files).foldl addSignal {}

/-- What is noted about the frameworks. -/
def summary (framework : Framework) : String :=
  let names := if framework.detected.isEmpty then "none" else ", ".intercalate framework.detected
  "Frameworks detected: " ++ names ++ " (confidence " ++ framework.confidence.twoPlaces ++ ")"

/-- Detects the frameworks of some files. -/
def detect (files : List SourceFile) : Journal Framework := do
  let manifest ← Manifest.consult files
  let framework := ofSignals (Manifest.dependencies manifest) files
  Journal.inform framework.summary
  return framework

end ScreenAtlas.Framework
