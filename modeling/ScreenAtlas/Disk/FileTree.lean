import ScreenAtlas.Disk.Location
import ScreenAtlas.Entries
import ScreenAtlas.Fault
import ScreenAtlas.Text.Lines
import ScreenAtlas.Text.Utf8

/-!
# File trees

The files and folders below a folder, as a value. Looking something up follows
names downwards; following the steps of a path starts every step from a folder
that exists. Reading a file as text decodes its bytes and writes every line break
as a line feed. A change gives a new tree or names the obstacle.
-/
namespace ScreenAtlas

/-- A file with its bytes, or a folder with its named entries. -/
inductive FileTree where
  | file (bytes : List UInt8)
  | folder (entries : List (String × FileTree))

namespace FileTree

/-- A folder without entries. -/
def empty : FileTree := folder []

/-- The tree is a folder. -/
def isFolder : FileTree → Bool
  | folder _ => true
  | file _ => false

/-- What a location leads to. -/
def lookup (tree : FileTree) : Location → Except Obstacle FileTree
  | [] => .ok tree
  | name :: rest =>
    match tree with
    | file _ => .error .notFolder
    | folder entries =>
      match entries.lookup name with
      | some entry => entry.lookup rest
      | none => .error .missing

/-- The location leads to a folder. -/
def hasFolder (tree : FileTree) (location : Location) : Bool :=
  match tree.lookup location with
  | .ok found => found.isFolder
  | .error _ => false

/-- The location leads to something. -/
def holds (tree : FileTree) (location : Location) : Bool :=
  match tree.lookup location with
  | .ok _ => true
  | .error _ => false

/-- The bytes of a file. -/
def readBytes (tree : FileTree) (location : Location) : Except Obstacle (List UInt8) :=
  match tree.lookup location with
  | .ok (file bytes) => .ok bytes
  | .ok (folder _) => .error .isFolder
  | .error obstacle => .error obstacle

/-- The text of a file, with every line break written as a line feed. -/
def readText (tree : FileTree) (location : Location) : Except Obstacle String :=
  match tree.readBytes location with
  | .error obstacle => .error obstacle
  | .ok bytes =>
    match Text.decode? bytes with
    | some text => .ok (String.ofList (Text.unifyBreaks text))
    | none => .error .undecodable

/-- Follows steps from a location. Every step starts from a folder, also a step up. -/
def follow (tree : FileTree) (here : Location) : List String → Except Obstacle Location
  | [] => .ok here
  | step :: rest =>
    match tree.lookup here with
    | .error obstacle => .error obstacle
    | .ok (file _) => .error .notFolder
    | .ok (folder entries) =>
      if step == Location.stepUp then tree.follow here.dropLast rest
      else if (entries.lookup step).isSome then tree.follow (here ++ [step]) rest
      else .error .missing

/-- Puts a tree at a location. Missing folders on the way are made. -/
def place (tree entry : FileTree) : Location → Except Obstacle FileTree
  | [] => .ok entry
  | name :: rest =>
    match tree with
    | file _ => .error .notFolder
    | folder entries => do
      let old := (entries.lookup name).getD empty
      return folder (Entries.put name (← old.place entry rest) entries)

/-- Takes away what a location leads to. -/
def remove (tree : FileTree) : Location → FileTree
  | [] => tree
  | name :: rest =>
    match tree with
    | file bytes => file bytes
    | folder entries =>
      if rest.isEmpty then folder (entries.filter fun entry => entry.1 != name)
      else
        match entries.lookup name with
        | some entry => folder (Entries.put name (entry.remove rest) entries)
        | none => folder entries

/-- Writes a file into a folder that exists. -/
def writeFile (tree : FileTree) (parent : Location) (name : String) (bytes : List UInt8) :
    Except Obstacle FileTree :=
  match tree.lookup parent with
  | .error obstacle => .error obstacle
  | .ok (file _) => .error .notFolder
  | .ok (folder entries) =>
    match entries.lookup name with
    | some (folder _) => .error .isFolder
    | _ => tree.place (file bytes) (parent ++ [name])

/-- Makes a folder in a folder that exists; one that is already there is kept. -/
def makeFolder (tree : FileTree) (parent : Location) (name : String) : Except Obstacle FileTree :=
  match tree.lookup parent with
  | .error obstacle => .error obstacle
  | .ok (file _) => .error .notFolder
  | .ok (folder entries) =>
    if name == Location.stepUp then .ok tree
    else
      match entries.lookup name with
      | some (folder _) => .ok tree
      | some (file _) => .error .alreadyExists
      | none => tree.place empty (parent ++ [name])

/-- Makes the folder that steps lead to, given last step first, and the folders
above it that are missing. -/
def makeFolders (tree : FileTree) (here : Location) : List String → Except Obstacle FileTree
  | [] => .ok tree
  | last :: above =>
    match tree.follow here above.reverse with
    | .ok parent => tree.makeFolder parent last
    | .error .missing => do
      let tree ← tree.makeFolders here above
      let parent ← tree.follow here above.reverse
      tree.makeFolder parent last
    | .error obstacle => .error obstacle

end FileTree

end ScreenAtlas
