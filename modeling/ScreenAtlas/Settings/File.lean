import ScreenAtlas.Disk.FileTree
import ScreenAtlas.Settings.Reader

/-!
# The settings file

The settings of a repository stand in one file in its folder. A path that is no
folder means the settings file beside it, and a missing file sets nothing.
-/
namespace ScreenAtlas.Settings

open ScreenAtlas

/-- The settings and the folder that they hold for. -/
structure Loaded where
  folder : Location
  settings : Settings
  deriving DecidableEq, Repr

/-- Where the settings file for a path is. A path leads to a folder only when every
step on the way exists. -/
def locate (tree : FileTree) (here : Location) (path : String) : Location :=
  let steps := Location.steps path
  let start := Location.startOf here path
  let isFolder :=
    match tree.follow start steps with
    | .ok location => tree.hasFolder location
    | .error _ => false
  if isFolder then steps.foldl Location.walk start ++ [settingsFile]
  else
    match steps.getLast? with
    | some last =>
      if last == settingsFile then steps.foldl Location.walk start
      else steps.dropLast.foldl Location.walk start ++ [settingsFile]
    | none => start.dropLast ++ [settingsFile]

/-- The settings in a settings file; those that hold when there is no such file. -/
def read (reading : Yaml.Reading) (tree : FileTree) (location : Location) :
    Except Fault Settings :=
  if tree.holds location then
    match tree.readText location with
    | .ok text => ofText reading text.toList
    | .error _ => .error (.settings .unreadable)
  else .ok {}

/-- Loads the settings for a path. -/
def load (reading : Yaml.Reading) (tree : FileTree) (here : Location) (path : String) :
    Except Fault Loaded :=
  if path.toList.any Location.isForbidden then .error .malformedPath
  else do
    let location := locate tree here path
    return { folder := location.dropLast, settings := ← read reading tree location }

end ScreenAtlas.Settings
