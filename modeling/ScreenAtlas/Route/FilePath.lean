import ScreenAtlas.Route.Path
import ScreenAtlas.Text.Scan

/-!
# Routes named by files

File-system routers name a route by the place of its file. Folders in round
brackets only group files and leave no trace, a name in square brackets is a
parameter, and a final `index` stands for its folder.
-/
namespace ScreenAtlas.Route

open ScreenAtlas.Text

/-- A grouping folder in round brackets, with the slash behind it. -/
def group? : Recogniser (List Char) := fun _ text =>
  match text with
  | '(' :: rest =>
    match rest.dropWhile (fun c => c != ')' && c != '/') with
    | ')' :: behind => some ([], skipMark '/' behind)
    | _ => none
  | _ => none

/-- A parameter's name up to its closing bracket, which may be doubled. -/
def parameterName? (text : List Char) : Option (List Char × List Char) :=
  match run? (· != ']') text with
  | some (name, _ :: rest) => some (':' :: name, skipMark ']' rest)
  | _ => none

/-- A parameter in square brackets. The opening bracket may be doubled and three
dots may precede the name; where that would leave no name, dots or bracket are
part of the name. -/
def parameter? : Recogniser (List Char) := fun _ text =>
  match text with
  | '[' :: rest =>
    let withDots := fun inner => (literal? "..." inner).bind parameterName?
    let doubled :=
      match rest with
      | '[' :: inner => (withDots inner).or (parameterName? inner)
      | _ => none
    doubled.or ((withDots rest).or (parameterName? rest))
  | _ => none

/-- The route of a file, given its place below the routes' folder without the
file's extension. -/
def ofFile (place : String) : String :=
  let path := normalizeChars (substitute group? place.toList)
  if path == "/index".toList then "/"
  else
    let path :=
      match before? "/index".toList path with
      | some [] => ['/']
      | some parent => parent
      | none => path
    String.ofList (normalizeChars (substitute parameter? path))

end ScreenAtlas.Route
