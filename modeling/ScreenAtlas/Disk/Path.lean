import ScreenAtlas.Disk.Location
import ScreenAtlas.Text.Point
import ScreenAtlas.Text.Utf8

/-!
# Paths as they are given

The path by which a file is asked for comes from outside and is a sequence of code points. It
may hold halves of pairs that stand alone, and these decide what becomes of it: a file name on
the disk is made of bytes, and most of them cannot be written as bytes at all.

Where a path leads is decided by its code points alone. Only then are the names turned into
those that entries have on the disk.
-/
namespace ScreenAtlas

/-- A path, or one name of a path, as it is given. -/
abbrev Path := List Text.Point

namespace Path

open Text

/-- A text as a path. -/
def ofString (text : String) : Path := text.toList.map .char

/-- The path as messages show it. -/
def shown (path : Path) : String := String.ofList (path.map Point.shown)

/-- The code point that separates names. -/
def slash : Point := .char '/'

/-- The name that stays where it is. -/
def stay : Path := [.char '.']

/-- The name that leads to the folder above. -/
def stepUp : Path := [.char '.', .char '.']

/-- The steps of a path. -/
def steps (path : Path) : List Path := Location.stepsBy slash (.char '.') path

/-- The path starts at the top of the disk. -/
def isAbsolute (path : Path) : Bool := path.head? == some slash

/-- The names on the way to a location. -/
def names (location : Location) : List Path := location.map ofString

/-- Where a path leads that is read at a location, by the names on the way from the top. -/
def resolve (here : Location) (path : Path) : List Path :=
  (steps path).foldl (Location.walkBy stepUp) (if isAbsolute path then [] else names here)

/-- The bytes of a name; none when one of its code points has no bytes. -/
def bytes? (name : Path) : Option (List UInt8) := (name.mapM Point.bytes?).map List.flatten

/-- The name of the entry that a name means on the disk. The entries of file trees are named by
texts, so a name whose bytes are no text means none of them; a slash stands for it, which is
in no name. -/
def onDisk (name : Path) : String :=
  match name.bytes?.bind decode? with
  | some letters => String.ofList letters
  | none => "/"

end Path

end ScreenAtlas
