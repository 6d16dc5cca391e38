import ScreenAtlas.Framework.RouteFile
import ScreenAtlas.Navigation.Link
import ScreenAtlas.Route.Label
import ScreenAtlas.Route.Path
import ScreenAtlas.Screen.Basic

/-!
# Screens chosen by a state variable

An application can keep the current view in a state variable and render a
component for each of its values, in the cases of a switch or under a condition.
Each value with a component is a screen.
-/
namespace ScreenAtlas.Screen

open ScreenAtlas.Text

/-- What follows a mark behind blanks, without the blanks behind the mark. -/
def pastMark? (mark : Char) (text : List Char) : Option (List Char) :=
  match skipBlanks text with
  | c :: rest => if c == mark then some (skipBlanks rest) else none
  | [] => none

/-- A state variable that is declared together with its setter. -/
def stateVariable? : Recogniser (List Char) := fun _ text => do
  let rest ← literal? "[" text
  let (name, rest) ← run? isWord (skipBlanks rest)
  let rest ← pastMark? ',' rest
  let (_, rest) ← run? isWord rest
  let rest ← pastMark? ']' rest
  let rest ← pastMark? '=' rest
  let rest ← literal? "useState" ((literal? "React." rest).getD rest)
  if outsideWord rest.head? then some (name, rest) else none

/-- The words in front of a view variable's name. -/
def viewAdjectives : List String := ["current", "active", "selected"]

/-- The words for what a view variable holds. -/
def viewNouns : List String := ["view", "page", "screen", "tab", "route"]

/-- One of the words, in any case of letters, is all there is. -/
def isAnyCase (words : List String) (text : List Char) : Bool :=
  words.any fun word => afterAnyCase? word.toList text == some []

/-- A variable is named like one that holds the current view. -/
def isViewVariable (name : List Char) : Bool :=
  isAnyCase viewNouns name ||
    match oneOfAnyCase? viewAdjectives name with
    | some rest => isAnyCase viewNouns rest
    | none => false

/-- The view variables of a source, one for every declaration. -/
def viewVariables (content : List Char) : List (List Char) :=
  ((hits stateVariable? content).map Hit.value).filter isViewVariable

/-- A value of a view variable and the component that is rendered for it. -/
structure ViewCase where
  segment : List Char
  component : List Char

/-- The component of an element, possibly in parentheses. -/
def renderedComponent? (text : List Char) : Option (List Char × List Char) :=
  match skipBlanks (skipMark '(' (skipBlanks text)) with
  | '<' :: rest =>
    match skipBlanks rest with
    | c :: rest =>
      if c.isUpper then
        let continues := fun c : Char => isWord c || c == '.'
        some (c :: rest.takeWhile continues, rest.dropWhile continues)
      else none
    | [] => none
  | _ => none

/-- The word that starts a case, with a blank behind it. -/
def startsCase (before : Option Char) (text : List Char) : Bool :=
  outsideWord before &&
    match literal? "case" text with
    | some (c :: _) => isBlank c
    | _ => false

/-- The nearest returned component before the next case. -/
def returnedComponent? (before : Option Char) : List Char → Option (List Char × List Char)
  | [] => none
  | c :: rest =>
    match (literal? "return" (c :: rest)).bind renderedComponent? with
    | some found => some found
    | none => if startsCase before (c :: rest) then none else returnedComponent? (some c) rest

/-- A case with a literal value that returns a component. -/
def switchCase? : Recogniser ViewCase := fun _ text => do
  let rest ← literal? "case" text
  let (_, rest) ← run? isBlank rest
  let (segment, rest) ← quoted? rest
  match skipBlanks rest with
  | ':' :: rest =>
    let (component, rest) ← returnedComponent? (some ':') rest
    some (⟨segment, component⟩, rest)
  | _ => none

/-- A switch over a variable. -/
def switchOver? (selector : List Char) : Recogniser Unit := fun _ text => do
  let rest ← literal? "switch" text
  let rest ← pastMark? '(' rest
  let rest ← after? selector rest
  let rest ← pastMark? ')' rest
  some ((), rest)

/-- A component that is rendered when a variable has a literal value. -/
def conditionalCase? (selector : List Char) : Recogniser ViewCase := fun before text =>
  if outsideWord before then do
    let rest ← after? selector text
    let rest ← literal? "==" (skipBlanks rest)
    let (segment, rest) ← quoted? (skipBlanks (skipMark '=' rest))
    let rest ← literal? "&&" (skipBlanks rest)
    let (component, rest) ← renderedComponent? rest
    some (⟨segment, component⟩, rest)
  else none

/-- The values of a view variable with their components. -/
def viewCases (content selector : List Char) : List ViewCase :=
  let cases :=
    if (first? (switchOver? selector) content).isSome then
      (hits switchCase? content).map Hit.value
    else []
  cases ++ (hits (conditionalCase? selector) content).map Hit.value

/-- A component's name without the word for a view at its end. -/
def withoutViewWord (name : List Char) : List Char :=
  let ending := ["Screen", "Page", "View"].find? fun word =>
    word.length ≤ name.length &&
      afterAnyCase? (word.toList.map Char.toLower) (name.drop (name.length - word.length)) ==
        some []
  match ending with
  | some word => name.take (name.length - word.length)
  | none => name

/-- The segment of a path that a value becomes. -/
def slugOf (segment : List Char) : List Char :=
  (trim segment).map fun c => if c == ' ' then '-' else c

/-- The screen of a value of a view variable; none when nothing of the value is
left for its path. -/
def ofViewCase? (file : SourceFile) (links : List String) (view : ViewCase) : Option Screen :=
  let slug := String.ofList (slugOf view.segment)
  if slug.isEmpty then none
  else
    let bare := withoutViewWord ((view.component.splitOn '.').getLast?.getD [])
    let name := String.ofList (if bare.isEmpty then view.segment else bare)
    some {
      id := "screen:state:" ++ slug
      name := Route.capitalize name
      path := Route.normalize ("/view/" ++ slug)
      filePath := file.path
      kind := "view"
      framework := "react-state"
      navigatesTo := links }

/-- The screens of the view variables of one file. -/
def viewsOfFile (reading : Script.Reading) (file : SourceFile) : List Screen :=
  let content := file.content.toList
  if RouteFile.isModule ["App"] file.path && holds "useState" content then
    let links := Navigation.links reading file.path file.content
    (viewVariables content).flatMap fun selector =>
      (viewCases content selector).filterMap (ofViewCase? file links)
  else []

/-- Appends a screen unless one with its path is listed already. -/
def addPath (screens : List Screen) (screen : Screen) : List Screen :=
  if screens.any fun present => present.path == screen.path then screens else screens ++ [screen]

/-- The screens that state variables choose between. -/
def stateViews (reading : Script.Reading) (files : List SourceFile) : List Screen :=
  (files.flatMap (viewsOfFile reading)).foldl addPath []

end ScreenAtlas.Screen
