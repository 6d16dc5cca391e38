import ScreenAtlas.Framework.Basic
import ScreenAtlas.Framework.RouteFile
import ScreenAtlas.Navigation.Link
import ScreenAtlas.Route.FilePath
import ScreenAtlas.Route.Label
import ScreenAtlas.Screen.Basic

/-!
# Screens by the places of files

With file-system routing every page file is a screen, and its place is its route.
-/
namespace ScreenAtlas.Screen

open ScreenAtlas.Text

/-- The screen of a page file with a given route. -/
def ofPageFile (reading : Script.Reading) (framework : String) (file : SourceFile)
    (route : String) : Screen :=
  let path := Route.ofFile route
  { id := "screen:" ++ file.path
    name := Route.labelOr Route.homeLabel path
    path
    filePath := file.path
    kind := "page"
    framework
    navigatesTo := Navigation.links reading file.path file.content
    componentCode := .text file.content }

/-- The screens of the files to which a route is assigned. -/
def ofPageFiles (reading : Script.Reading) (framework : String)
    (route? : String → Option String) (files : List SourceFile) : List Screen :=
  files.filterMap fun file => (route? file.path).map (ofPageFile reading framework file)

/-- The screens of pages below `app` folders. -/
def appPages (reading : Script.Reading) (files : List SourceFile) : List Screen :=
  ofPageFiles reading Framework.appRouter RouteFile.appRoute? files

/-- The route names a module with a special role rather than a page: a frame around
all pages, or an endpoint. -/
def isSpecialPage (route : String) : Bool :=
  let text := route.toList
  let frame := ["_app", "_document", "_error"].any fun name =>
    match before? name.toList text with
    | none => false
    | some folders => folders.isEmpty || folders.getLast? == some '/'
  let endpoint :=
    match literal? "api" text with
    | none => false
    | some rest => rest.isEmpty || rest.head? == some '/'
  frame || endpoint

/-- The route of a page module that is a page. -/
def ordinaryPage? (path : String) : Option String :=
  (RouteFile.pagesRoute? path).filter fun route => !isSpecialPage route

/-- The screens of page modules below the `pages` folder. -/
def pageModules (reading : Script.Reading) (files : List SourceFile) : List Screen :=
  ofPageFiles reading Framework.pagesRouter ordinaryPage? files

/-- The screens of component files below the `pages` folder. -/
def pageComponents (reading : Script.Reading) (files : List SourceFile) : List Screen :=
  ofPageFiles reading Framework.nuxt RouteFile.componentRoute? files

end ScreenAtlas.Screen
