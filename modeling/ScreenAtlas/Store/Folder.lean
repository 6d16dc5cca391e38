import ScreenAtlas.Disk.FileTree
import ScreenAtlas.Json.Reader
import ScreenAtlas.Json.Writer
import ScreenAtlas.Log.Note
import ScreenAtlas.Record.Codec
import ScreenAtlas.Text.Scan

/-!
# Records in a folder

Every record has a file of its own, named by its identifier, with a document that
carries the version of its form. Identifiers are limited to characters that cannot
lead out of the folder; under any other identifier nothing can be kept or found.

A file that cannot be read as a document of this version is passed over with a
warning, as if nothing were kept under its identifier.
-/
namespace ScreenAtlas

/-- A folder in which records are kept. The folder is named by a path that is read
at a location of the disk, and need not exist. -/
structure FolderStore where
  tree : FileTree
  here : Location := []
  directory : String

namespace FolderStore

/-- The version of the documents. -/
def version : Int := 1

/-- The character can stand in an identifier. -/
def isSafeChar (c : Char) : Bool := c.isAlphanum || c == '_' || c == '.' || c == '-'

/-- The identifier can name a file. A line feed at its end does no harm. -/
def isSafe (id : String) : Bool :=
  let body := (Text.finalBreak id.toList).1
  !body.isEmpty && body.all isSafeChar

/-- The name of the file of a record. -/
def fileName (id : String) : String := id ++ ".json"

/-- The file of a record as messages show it. -/
def shownPath (store : FolderStore) (id : String) : String :=
  Location.plain (store.directory ++ "/" ++ fileName id)

/-- The steps that lead to the folder, or a fault when no path can be like that. -/
def steps (store : FolderStore) : Except Fault (List String) :=
  if store.directory.toList.any Location.isForbidden then .error .malformedPath
  else .ok (Location.steps store.directory)

/-- Where the path of the folder starts. -/
def start (store : FolderStore) : Location := Location.startOf store.here store.directory

/-- The document of a record. -/
def documentOf (record : Record) : String :=
  Json.document (Json.sorted (.object
    [("version", .int version), ("record", .object record.encode)]))

/-- Keeps a record. Missing folders are made first; then the document is written out, which
fails when the record holds a whole number with too many digits, and only then the file is
touched. -/
def save (store : FolderStore) (id : String) (record : Record) : Except Fault FolderStore :=
  if isSafe id then do
    let steps ← store.steps
    let tree ← (store.tree.makeFolders store.start steps.reverse).mapError .blocked
    if Json.isPrintable (.object record.encode) then
      let tree ←
        (do
          let folder ← tree.follow store.start steps
          tree.writeFile folder (fileName id) (Text.encode (documentOf record).toList)
          : Except Obstacle FileTree).mapError .blocked
      return { store with tree }
    else .error .malformedNumber
  else .error (.unknownAnalysis id)

/-- The text of the file of a record. -/
def readFile (store : FolderStore) (id : String) : Except Fault String := do
  let steps ← store.steps
  (do
    let folder ← store.tree.follow store.start steps
    store.tree.readText (folder ++ [fileName id])
    : Except Obstacle String).mapError .blocked

/-- The value is the number of the version. -/
def isVersion : Json → Bool
  | .int n => n == version
  | .double number => number.equalsInt version
  | .bool value => value
  | _ => false

/-- What is said of a file that is passed over. -/
def unreadable (store : FolderStore) (id : String) (detail : String) :
    Journal (Option Members) := do
  Journal.warn ("Unreadable analysis file " ++ store.shownPath id) (some detail)
  return none

/-- The members of a stored record in a document. -/
def recordIn (store : FolderStore) (id : String) (value : Json) : Journal (Option Members) := do
  let current :=
    match value with
    | .object members =>
      match Members.get? members "version" with
      | some number => if isVersion number then some members else none
      | none => none
    | _ => none
  match current with
  | none =>
    Journal.warn ("Ignoring analysis file " ++ store.shownPath id ++ " with unsupported version")
      none
    return none
  | some members =>
    match Members.get? members "record" with
    | some (.object record) => return some record
    | _ => return none

/-- The members of the record in the file of an identifier. -/
def loadMembers (store : FolderStore) (id : String) : Journal (Option Members) := do
  match store.readFile id with
  | .ok text =>
    match Json.read text with
    | .ok value => store.recordIn id value
    | .error .tooManyDigits => throw .malformedNumber
    | .error .malformed => store.unreadable id "not a document"
  | .error (.blocked .missing) => return none
  | .error (.blocked .undecodable) => throw (.blocked .undecodable)
  | .error (.blocked obstacle) => store.unreadable id obstacle.reason
  | .error fault => throw fault

/-- The record kept under an identifier. -/
def get (store : FolderStore) (id : String) : Journal Record := do
  if isSafe id then
    match ← store.loadMembers id with
    | some members => liftExcept (Record.decode members)
    | none => throw (.unknownAnalysis id)
  else throw (.unknownAnalysis id)

end FolderStore

end ScreenAtlas
