import ScreenAtlas.Framework.Manifest
import ScreenAtlas.Framework.RouteFile
import ScreenAtlas.Navigation.Link
import ScreenAtlas.Route.Label
import ScreenAtlas.Route.Path
import ScreenAtlas.Screen.Basic
import ScreenAtlas.Settings.Basic

/-!
# Screens without routing

When nothing declares routes, files that are named or placed like screens count as
screens. Failing that, the application is a single screen, or has the screens that
the settings list.
-/
namespace ScreenAtlas.Screen

open ScreenAtlas.Text

/-- The file is a test or an example of a component. -/
def isTestFile (path : String) : Bool :=
  match RouteFile.stem? RouteFile.moduleEndings path.toList with
  | none => false
  | some stem => [".test", ".spec", ".stories"].any fun ending =>
    (before? ending.toList stem).isSome

/-- Folders of screens, in small letters. -/
def screenFolders : List String :=
  ["screens/", "screen/", "pages/", "page/", "views/", "view/", "routes/", "route/"]

/-- What precedes an ending in any case of letters. -/
def beforeAnyCase? (endings : List String) (text : List Char) : Option (List Char) :=
  endings.findSome? fun ending =>
    if ending.length ≤ text.length &&
        afterAnyCase? ending.toList (text.drop (text.length - ending.length)) == some [] then
      some (text.take (text.length - ending.length))
    else none

/-- The name of a screen, given what follows the folder of screens: a module of
that name, or a folder of that name with an index module. -/
def folderScreen? (rest : List Char) : Option (List Char) := do
  let stem ← beforeAnyCase? RouteFile.moduleEndings (finalBreak rest).1
  let name := stem.takeWhile (· != '/')
  let behind := stem.dropWhile (· != '/')
  if !name.isEmpty && (behind.isEmpty || isIndex behind) then some name else none
where
  isIndex (text : List Char) : Bool := afterAnyCase? "/index".toList text == some []

/-- The name of a screen by the first folder of screens that gives one. -/
def folderNameFrom? (start : Bool) : List Char → Option (List Char)
  | [] => none
  | c :: rest =>
    let below := fun text => (oneOfAnyCase? screenFolders text).bind folderScreen?
    let here := if start then below (c :: rest) else none
    match here with
    | some name => some name
    | none =>
      match if c == '/' then below rest else none with
      | some name => some name
      | none => folderNameFrom? false rest

/-- The name of a component by its file. -/
def componentName? (path : List Char) : Option (List Char) := do
  let stem ← RouteFile.stem? RouteFile.moduleEndings path
  let name := (stem.reverse.takeWhile (· != '/')).reverse
  let folders := stem.take (stem.length - name.length)
  let inFolder := ["/components/", "/component/"].any fun folder =>
    (before? folder.toList folders).isSome
  if inFolder && !name.isEmpty then some name else none

/-- A component is named like a screen: by its last word, or by a long name. -/
def isScreenComponent (name : List Char) : Bool :=
  (name.head?.map isCapital).getD false &&
    ((beforeOneOf? ["Screen", "Page", "View"] name).isSome || 8 < name.length)

/-- The name of the screen that a file is by its place, if it is one. -/
def placedName? (path : String) : Option String :=
  let text := path.toList
  if isTestFile path then none
  else if !holds "/components/" text then
    (folderNameFrom? true text).map fun name => Route.capitalize (String.ofList name)
  else if holds "/components/pages/" text then none
  else ((componentName? text).filter isScreenComponent).map String.ofList

/-- The route of a screen by its name. -/
def routeOfName (name : String) : String :=
  let slug := String.ofList (withoutFinal ["screen", "page", "view"] (small name.toList))
  if slug.isEmpty || slug == "index" then "/" else Route.normalize slug

/-- The screen of a file with a given name. -/
def ofPlacedFile (reading : Script.Reading) (file : SourceFile) (name : String) : Screen :=
  { id := "screen:" ++ file.path
    name
    path := routeOfName name
    filePath := file.path
    kind := "screen"
    framework := "heuristic"
    navigatesTo := Navigation.links reading file.path file.content
    componentCode := .text file.content }

/-- The screens of files that are placed like screens. -/
def placedFiles (reading : Script.Reading) (files : List SourceFile) : List Screen :=
  files.filterMap fun file => (placedName? file.path).map (ofPlacedFile reading file)

/-- A package's name without its scope. -/
def withoutScope (name : List Char) : List Char :=
  match name with
  | '@' :: rest =>
    match rest.takeWhile (· != '/'), rest.dropWhile (· != '/') with
    | _ :: _, _ :: bare => bare
    | _, _ => name
  | _ => name

/-- The name of an application by its manifest. -/
def applicationName (manifest : Members) : String :=
  match Members.get? manifest "name" with
  | some (.text name) =>
    let words := fields (fun c => c == '-' || c == '_' || isBlank c)
      (withoutScope (trim name.toList))
    if words.isEmpty then "App"
    else " ".intercalate (words.map fun word => Route.capitalize (String.ofList word))
  | _ => "App"

/-- The one screen of an application without routing. -/
def singlePage (reading : Script.Reading) (manifest : Members) (files : List SourceFile) :
    List Screen :=
  let entry := files.find? fun file => RouteFile.isModule ["App", "main"] file.path
  [{ id := "screen:single:app"
     name := applicationName manifest
     path := "/"
     filePath := (entry.map SourceFile.path).getD "unknown"
     kind := "screen"
     framework := "single-page"
     navigatesTo :=
      (entry.map fun file => Navigation.links reading file.path file.content).getD [] }]

/-- The screens that the settings list. -/
def ofFallbackRoutes (routes : List FallbackRoute) : List Screen :=
  routes.map fun route =>
    { id := "screen:fallback:" ++ route.path
      name := route.name
      path := Route.normalize route.path
      filePath := "unknown"
      kind := "page"
      framework := "fallback" }

end ScreenAtlas.Screen
