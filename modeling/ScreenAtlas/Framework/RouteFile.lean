import ScreenAtlas.Text.Scan

/-!
# Files that are routes by their place

Some frameworks derive a route from the place of a file. These functions give the
part of a path that becomes the route. A single line break at the end of a path is
disregarded, and that part holds none.
-/
namespace ScreenAtlas.RouteFile

open ScreenAtlas.Text

/-- Endings of page modules. -/
def moduleEndings : List String := [".ts", ".tsx", ".js", ".jsx"]

/-- What precedes one of some endings of a path. -/
def stem? (endings : List String) (path : List Char) : Option (List Char) :=
  beforeOneOf? endings (finalBreak path).1

/-- The part of a path on one line. -/
def onLine (part : List Char) : Option (List Char) :=
  if part.contains '\n' then none else some part

/-- The route of a page below an `app` folder, given what follows the folder: the
folders between it and the page's file. -/
def pageFolders? (rest : List Char) : Option (List Char) := do
  let stem ← stem? moduleEndings rest
  let folders ← before? "page".toList stem
  match folders.getLast? with
  | none => some []
  | some '/' => onLine folders.dropLast
  | some _ => none

/-- The first place where an `app` folder gives a route. -/
def appRouteFrom? (start : Bool) : List Char → Option (List Char)
  | [] => none
  | c :: rest =>
    let atStart := if start then (literal? "app/" (c :: rest)).bind pageFolders? else none
    match atStart with
    | some route => some route
    | none =>
      let behindSlash := if c == '/' then (literal? "app/" rest).bind pageFolders? else none
      match behindSlash with
      | some route => some route
      | none => appRouteFrom? false rest

/-- The route of a page below an `app` folder. -/
def appRoute? (path : String) : Option String :=
  (appRouteFrom? true path.toList).map String.ofList

/-- The route of a file below the top `pages` folder. -/
def pagesPart? (endings : List String) (path : String) : Option String := do
  let rest ← literal? "pages/" path.toList
  let stem ← stem? endings rest
  let part ← onLine stem
  some (String.ofList part)

/-- The route of a page module below the top `pages` folder. -/
def pagesRoute? (path : String) : Option String := pagesPart? moduleEndings path

/-- The route of a component file below the top `pages` folder. -/
def componentRoute? (path : String) : Option String := pagesPart? [".vue"] path

/-- The path names a module of the given name, in any folder. -/
def isModule (names : List String) (path : String) : Bool :=
  match stem? moduleEndings path.toList with
  | none => false
  | some stem => names.any fun name =>
    match before? name.toList stem with
    | none => false
    | some folders => folders.isEmpty || folders.getLast? == some '/'

end ScreenAtlas.RouteFile
