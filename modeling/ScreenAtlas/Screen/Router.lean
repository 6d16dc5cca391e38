import ScreenAtlas.Framework.Basic
import ScreenAtlas.Navigation.Link
import ScreenAtlas.Route.Label
import ScreenAtlas.Route.Tree
import ScreenAtlas.Screen.Basic

/-!
# Screens of declared routes

Every route that a script declares is a screen. Two routes with the same name and
path are one screen, also when they stand in different files.
-/
namespace ScreenAtlas.Screen

/-- The screen of a declared route. -/
def ofRoute (file : SourceFile) (links : List String) (target : Route.Target) : Screen :=
  let name := Route.screenName target.path target.component
  { id := "screen:" ++ name ++ ":" ++ target.path
    name
    path := target.path
    filePath := file.path
    kind := "page"
    framework := Framework.router
    navigatesTo := links }

/-- A file can declare routes. -/
def mayDeclareRoutes (file : SourceFile) : Bool :=
  let content := file.content.toList
  (Text.holds "<Route" content || Text.holds "path:" content) && Script.isScript file.path

/-- The screens of the routes that one file declares. -/
def routesOfFile (reading : Script.Reading) (layouts : List String) (file : SourceFile) :
    List Screen :=
  if mayDeclareRoutes file then
    let parsed := reading.parsed? (Script.dialectOf file.path) file.content
    let links := Navigation.linksOf parsed file.content
    (Route.recover parsed layouts file.content).map (ofRoute file links)
  else []

/-- Appends a screen unless one with its name and path is listed already. -/
def addRoute (screens : List Screen) (screen : Screen) : List Screen :=
  if screens.any fun present => present.name == screen.name && present.path == screen.path then
    screens
  else screens ++ [screen]

/-- The screens of the routes that files declare. -/
def declaredRoutes (reading : Script.Reading) (layouts : List String)
    (files : List SourceFile) : List Screen :=
  (files.flatMap (routesOfFile reading layouts)).foldl addRoute []

end ScreenAtlas.Screen
