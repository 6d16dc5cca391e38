import ScreenAtlas.Screen.State

/-!
# Screens chosen by the fragment of the address

An application can choose its page by the fragment of the address. Its pages are
the ones that a list allows, or without such a list, the fragments it mentions.
-/
namespace ScreenAtlas.Screen

open ScreenAtlas.Text

/-- A character of a page's name. -/
def isPageChar (c : Char) : Bool := isWord c || c == '-'

/-- A list of allowed pages: what stands between its brackets. -/
def pageList? : Recogniser (List Char) := fun before text =>
  if outsideWord before then do
    let (_, rest) ← oneOf? ["valid", "allowed", "known"] text
    let (_, rest) ← oneOf? ["Pages", "Routes", "Views", "Screens"] rest
    if outsideWord rest.head? then
      match rest.dropWhile fun c => c != '=' && c != '\n' with
      | '=' :: rest =>
        let rest ← literal? "[" (skipBlanks rest)
        match rest.dropWhile (· != ']') with
        | _ :: behind => some (rest.takeWhile (· != ']'), behind)
        | [] => none
      | _ => none
    else none
  else none

/-- A quoted fragment. -/
def fragment? : Recogniser (List Char) := fun _ text =>
  match text with
  | [] => none
  | c :: rest =>
    if isQuote c then do
      let rest ← literal? "#/" rest
      match ← run? isPageChar rest with
      | (page, closing :: rest) => if isQuote closing then some (page, rest) else none
      | _ => none
    else none

/-- The names in a list of pages. -/
def listedPages (list : List Char) : List (List Char) :=
  ((list.splitOn ',').map fun item => trimOf isQuote (trim item)).filter fun page =>
    !page.isEmpty && page.all isPageChar

/-- The pages of a source. -/
def hashPages (content : List Char) : List (List Char) :=
  match first? pageList? content with
  | some hit => listedPages hit.value
  | none =>
    if holds "location.hash" content then (hits fragment? content).map Hit.value else []

/-- The screen of a page. -/
def ofHashPage (file : SourceFile) (links : List String) (page : List Char) : Screen :=
  let slug := String.ofList page
  { id := "screen:hash:" ++ slug
    name := Route.capitalize (String.ofList (page.map fun c => if c == '-' then ' ' else c))
    path := "/hash/" ++ slug
    filePath := file.path
    kind := "view"
    framework := "react-hash"
    navigatesTo := links }

/-- The screens of the pages of one file. -/
def hashPagesOfFile (reading : Script.Reading) (file : SourceFile) : List Screen :=
  let content := file.content.toList
  if Script.isScript file.path && (holds "location.hash" content || holds "hashchange" content) then
    match hashPages content with
    | [] => []
    | pages =>
      let links := Navigation.links reading file.path file.content
      pages.map (ofHashPage file links)
  else []

/-- The screens that the fragment of the address chooses between. -/
def hashViews (reading : Script.Reading) (files : List SourceFile) : List Screen :=
  (files.flatMap (hashPagesOfFile reading)).foldl addPath []

end ScreenAtlas.Screen
