import ScreenAtlas.Command.Execution
import ScreenAtlas.Repository.Head
import ScreenAtlas.Script.Grammar.Program
import ScreenAtlas.Yaml.Meaning
import Std.Time.DateTime.Timestamp

/-!
# The program

The command line is carried out on an image of the disk that holds what the request
depends on: the names in the repository, the files that will be read, and the folder
of the store. Afterwards a record that was kept is written out.
-/
namespace ScreenAtlas.Program

open ScreenAtlas ScreenAtlas.Command

/-- The bytes of a file that can be read. -/
def bytesAt (path : String) : IO (Option (List UInt8)) := do
  try
    return some (← IO.FS.readBinFile path).toList
  catch _ => return none

/-- The text of a file that can be read. -/
def textAt (path : String) : IO (Option String) := do
  return ((← bytesAt path).bind Text.decode?).map String.ofList

/-- There is a folder. -/
def isFolderAt (path : String) : IO Bool := do
  try
    (← IO.FS.realPath path).isDir
  catch _ => return false

/-- The names of the files and folders below a folder, with empty files. Folders that
are never entered and folders behind links are left out. -/
partial def namesBelow (path : String) : IO FileTree := do
  let entries ← (← IO.FS.realPath path).readDir
  let mut found : List (String × FileTree) := []
  for entry in entries do
    let own := path ++ "/" ++ entry.fileName
    if ← entry.path.isDir then
      let isLink := (← entry.path.symlinkMetadata).type == .symlink
      if !isLink && !Repository.excludedFolders.contains entry.fileName then
        found := (entry.fileName, ← namesBelow own) :: found
    else found := (entry.fileName, .file []) :: found
  return .folder found

/-- An image with one more tree, unless something stands in its way. -/
def withTree (image entry : FileTree) (location : Location) : FileTree :=
  match image.place entry location with
  | .ok image => image
  | .error _ => image

/-- An image with the bytes of a file, if it can be read. -/
def withFile (image : FileTree) (location : Location) : IO FileTree := do
  match ← bytesAt location.text with
  | some bytes => return withTree image (.file bytes) location
  | none => return image

/-- An image with what is at a location, without looking into folders. -/
def withPlace (image : FileTree) (location : Location) : IO FileTree := do
  if image.hasFolder location then return image
  else if ← isFolderAt location.text then return withTree image .empty location
  else withFile image location

/-- The locations on the way to a location, and the location itself. -/
def placesTo (location : Location) : List Location :=
  (List.range (location.length + 1)).map location.take

/-- An image with the way to a location. -/
def withWay (image : FileTree) (location : Location) : IO FileTree :=
  (placesTo location).foldlM withPlace image

/-- An image with the names in a repository and the files that guide its listing. -/
def withRepository (image : FileTree) (root : Location) : IO FileTree := do
  let image ← withWay image root
  if ← isFolderAt root.text then
    let image := withTree image (← namesBelow root.text) root
    let image ← withFile image (root ++ [settingsFile])
    withFile image (root ++ [Repository.ignoreFile])
  else withFile image (root.dropLast ++ [settingsFile])

/-- The revision that a folder is at, looking into the folders above it as well. -/
partial def revisionAt (folder : Location) : IO (Option String) := do
  let control := folder ++ [".git"]
  match ← textAt (Location.text (control ++ ["HEAD"])) with
  | some head =>
    match Repository.Head.ofText head with
    | .revision name => return some name
    | .reference name =>
      match ← textAt (Location.resolve control name).text with
      | some revision => return some revision
      | none =>
        let list ← textAt (Location.text (control ++ ["packed-refs"]))
        return list.bind fun list => Repository.listedRevision? list name
  | none => if folder.isEmpty then return none else revisionAt folder.dropLast

/-- A stamp for an analysis that starts now. -/
def freshStamp : IO Analysis.Stamp := do
  let bytes ← IO.getRandomBytes 16
  let now := (← Std.Time.Timestamp.now).val
  return {
    id := Analysis.identifier bytes.toList
    time := Analysis.timeText now.second.val.toNat (now.nano.val.toNat / 1000) }

/-- The surroundings with the image that a request depends on. -/
def prepared (surroundings : Surroundings) (request : Request) : IO Surroundings := do
  let storeFolder := fun directory => Location.resolve surroundings.here directory
  match request with
  | .display id store =>
    let image ← withWay surroundings.tree (storeFolder store ++ [FolderStore.fileName id])
    return { surroundings with tree := image }
  | .analyze path _ _ store _ =>
    let image ←
      match store with
      | some directory => withWay surroundings.tree (storeFolder directory)
      | none => pure surroundings.tree
    match locate surroundings path with
    | .error _ => return { surroundings with tree := image }
    | .ok root =>
      let image ← withRepository image root
      let named := { surroundings with tree := image, printed := ← revisionAt root }
      let image ← (filesRead Yaml.Value.ofText named request).foldlM withFile image
      return { named with tree := image }

/-- Writes out the record that a request kept. -/
def writeOut (surroundings : Surroundings) (outcome : Outcome) : Request → IO Unit
  | .analyze _ _ _ (some directory) _ => do
    let folder := Location.resolve surroundings.here directory
    let file := folder ++ [FolderStore.fileName surroundings.stamp.id]
    match outcome.tree.readBytes file with
    | .ok bytes =>
      IO.FS.createDirAll folder.text
      IO.FS.writeBinFile file.text ⟨bytes.toArray⟩
    | .error _ => return ()
  | _ => return ()

end ScreenAtlas.Program

open ScreenAtlas ScreenAtlas.Command ScreenAtlas.Program in
/-- Runs a command line. -/
def main (line : List String) : IO UInt32 := do
  let surroundings : Surroundings :=
    { tree := .empty
      here := Location.resolve [] (← IO.currentDir).toString
      home := (← IO.getEnv "HOME").map (Location.resolve [])
      levelName := ← IO.getEnv Level.environmentName
      stamp := ← freshStamp }
  let surroundings ←
    match readOrder line with
    | .ok order => prepared surroundings order.request
    | .error _ => pure surroundings
  let outcome := execute Script.parse Yaml.Value.ofText surroundings line
  for note in outcome.notes do
    IO.eprintln (consoleLine note.level note.message)
  if let .ok order := readOrder line then
    writeOut surroundings outcome order.request
  IO.print outcome.output
  IO.eprint outcome.ending.text
  return outcome.ending.code.toUInt32
