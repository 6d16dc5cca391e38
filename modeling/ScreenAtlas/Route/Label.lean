import ScreenAtlas.Route.Path
import ScreenAtlas.Text.Scan

/-!
# Names of screens

A screen is named after its component without the closing words Screen and Page,
or after the last segment of its path. The first letter is written as a capital,
which may take more than one character.
-/
namespace ScreenAtlas.Route

open ScreenAtlas.Text

/-- A text with its first letter as a capital. -/
def capitalizeChars : List Char → List Char
  | [] => []
  | c :: rest => capitalOf c ++ rest

/-- A text with its first letter as a capital. -/
def capitalize (text : String) : String := String.ofList (capitalizeChars text.toList)

/-- A label for a path: its last segment, or a given one for the root. -/
def labelOr (rootLabel path : String) : String :=
  match (segments path).getLast? with
  | some segment => capitalize segment
  | none => rootLabel

/-- The label of the root. -/
def homeLabel : String := "Home"

/-- A screen's name from its component, or else from its path: a parameter's
colons are left out and dashes become spaces. -/
def screenName (path : String) (component : Option String) : String :=
  match component with
  | some component =>
    if component.isEmpty then fromPath path
    else
      let stripped := withoutFinal ["Screen", "Page"] component.toList
      if stripped.isEmpty then component else String.ofList stripped
  | none => fromPath path
where
  /-- The name that the last segment of a path gives. -/
  fromPath (path : String) : String :=
    let segment := ((segments path).getLast?.getD "index").toList
    let spaced := (segment.dropWhile (· == ':')).map fun c => if c == '-' then ' ' else c
    String.ofList (capitalizeChars spaced)

end ScreenAtlas.Route
