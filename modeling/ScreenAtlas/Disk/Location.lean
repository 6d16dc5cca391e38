import ScreenAtlas.Text.Blank

/-!
# Locations

A location names a file or folder by the folders that lead to it, from the top of
the disk down. A written path is a sequence of steps; resolving it against a
location looks at the steps alone and never at the disk, so that a step up takes
back the step before it whether or not the folder exists.
-/
namespace ScreenAtlas

/-- The names of the folders from the top of the disk down, and the own name last. -/
abbrev Location := List String

namespace Location

/-- The step to the folder above. -/
def stepUp : String := ".."

/-- The steps of a path that is written in some alphabet with a separator and a point. Empty
steps and steps that stay are left out. -/
def stepsBy {α : Type} [BEq α] (slash point : α) (path : List α) : List (List α) :=
  (Text.fields (· == slash) path).filter (· != [point])

/-- The steps of a written path. -/
def steps (path : String) : List String := (stepsBy '/' '.' path.toList).map String.ofList

/-- The path starts at the top of the disk. -/
def isAbsolute (path : String) : Bool := path.toList.head? == some '/'

/-- No path can hold this character. -/
def isForbidden (c : Char) : Bool := c == '\x00'

/-- One step from the place to which some names lead; `up` takes back the last of them, and
there is nothing above the top. -/
def walkBy {ν : Type} [BEq ν] (up : ν) (here : List ν) (step : ν) : List ν :=
  if step == up then here.dropLast else here ++ [step]

/-- One step from a location. -/
def walk (here : Location) (step : String) : Location := walkBy stepUp here step

/-- Where a path that is read at a location starts. -/
def startOf (here : Location) (path : String) : Location :=
  if isAbsolute path then [] else here

/-- The location that a path means when it is read at a location. -/
def resolve (here : Location) (path : String) : Location :=
  (steps path).foldl walk (startOf here path)

/-- The location written out from the top. -/
def text (location : Location) : String := "/" ++ "/".intercalate location

/-- The location lies below a folder, by the names on the way to both. -/
def isBelow {ν : Type} [BEq ν] (folder location : List ν) : Bool :=
  folder.isPrefixOf location && folder.length < location.length

/-- A path in its plainest form: without empty steps and steps that stay. -/
def plain (path : String) : String :=
  let start :=
    match path.toList with
    | '/' :: '/' :: '/' :: _ => "/"
    | '/' :: '/' :: _ => "//"
    | '/' :: _ => "/"
    | _ => ""
  start ++ "/".intercalate (steps path)

end Location

end ScreenAtlas
