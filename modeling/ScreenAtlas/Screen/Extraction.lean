import ScreenAtlas.Framework.Detection
import ScreenAtlas.Screen.Command
import ScreenAtlas.Screen.FileRouter
import ScreenAtlas.Screen.Hash
import ScreenAtlas.Screen.Heuristic
import ScreenAtlas.Screen.Router

/-!
# Extracting screens

The ways to find screens are tried in the order that the detected frameworks
suggest, and the first one that finds any decides. Before that, paths are put into
their normal form, wildcards are dropped and of several screens with the same
identifier the first is kept.
-/
namespace ScreenAtlas

/-- A way to find the screens of an application. -/
inductive Strategy where
  | appPages
  | pageModules
  | declaredRoutes (layouts : List String)
  | pageComponents
  | stateViews
  | hashViews
  | commands
  | placedFiles
  | singlePage
  | fallbackRoutes (routes : List FallbackRoute)

namespace Strategy

/-- The label of a strategy. -/
def label : Strategy → String
  | appPages => Framework.appRouter
  | pageModules => Framework.pagesRouter
  | declaredRoutes _ => Framework.router
  | pageComponents => Framework.nuxt
  | stateViews => "react-state"
  | hashViews => "react-hash"
  | commands => "cli-commander"
  | placedFiles => "heuristic"
  | singlePage => "single-page"
  | fallbackRoutes _ => "fallback"

/-- The screens that a strategy finds. -/
def screens (reading : Script.Reading) (files : List SourceFile) : Strategy → Journal (List Screen)
  | appPages => return Screen.appPages reading files
  | pageModules => return Screen.pageModules reading files
  | declaredRoutes layouts => return Screen.declaredRoutes reading layouts files
  | pageComponents => return Screen.pageComponents reading files
  | stateViews => return Screen.stateViews reading files
  | hashViews => return Screen.hashViews reading files
  | commands => do
    let manifest ← Manifest.consult files
    return Screen.commands (Manifest.binaryName manifest) files
  | placedFiles => return Screen.placedFiles reading files
  | singlePage => do
    let manifest ← Manifest.consult files
    return Screen.singlePage reading manifest files
  | fallbackRoutes routes => return Screen.ofFallbackRoutes routes

/-- The strategy for the framework that takes precedence among the detected ones. -/
def ofFramework (framework : Framework) (settings : Settings) : List Strategy :=
  if framework.includes Framework.appRouter then [appPages]
  else if framework.includes Framework.pagesRouter then [pageModules]
  else if framework.includes Framework.router then
    [declaredRoutes (Route.layoutWrappers ++ settings.layoutWrappers)]
  else if framework.includes Framework.nuxt then [pageComponents]
  else []

/-- The strategies in the order in which they are tried. -/
def chain (framework : Framework) (settings : Settings) : List Strategy :=
  ofFramework framework settings ++
  [stateViews, hashViews, commands, placedFiles] ++
  (if settings.singlePageFallback then [singlePage] else []) ++
  (if settings.fallbackRoutes.isEmpty then [] else [fallbackRoutes settings.fallbackRoutes])

end Strategy

namespace Screen

/-- Appends a screen with its path in normal form, unless its path is a wildcard or
its identifier is taken. -/
def addFinal (screens : List Screen) (screen : Screen) : List Screen :=
  if trimmed screen.path == Route.wildcard then screens
  else if screens.any fun present => present.id == screen.id then screens
  else screens ++ [{ screen with path := Route.normalize screen.path }]

/-- The screens that remain of what a strategy finds. -/
def finalize (screens : List Screen) : List Screen := screens.foldl addFinal []

/-- The screens of the first strategy that finds any. -/
def firstFound (reading : Script.Reading) (files : List SourceFile) :
    List Strategy → Journal (List Screen)
  | [] => do
    Journal.inform "No strategy produced screens"
    return []
  | strategy :: rest => do
    match finalize (← strategy.screens reading files) with
    | [] => firstFound reading files rest
    | screens =>
      Journal.inform ("Screens extracted by " ++ strategy.label ++ " strategy: " ++
        toString screens.length)
      return screens

end Screen

/-- The screens of a repository and the frameworks that guided their extraction. -/
structure Extraction where
  screens : List Screen
  framework : Framework

/-- Extracts the screens of some files. The frameworks are detected unless they are
given. -/
def extractScreens (reading : Script.Reading) (files : List SourceFile) (settings : Settings)
    (hints : Option Framework) : Journal Extraction := do
  let framework ←
    match hints with
    | some framework => pure framework
    | none => Framework.detect files
  let screens ← Screen.firstFound reading files (Strategy.chain framework settings)
  return { screens, framework }

end ScreenAtlas
