import ScreenAtlas.Json.Reader
import ScreenAtlas.Log.Note
import ScreenAtlas.Screen.Basic

/-!
# The manifest of a repository

The manifest is the file `package.json` at the root. A missing or malformed one
counts as empty; a malformed one is noted each time it is consulted.
-/
namespace ScreenAtlas.Manifest

/-- The path of the manifest. -/
def path : String := "package.json"

/-- The manifest among some files. -/
def find? (files : List SourceFile) : Option SourceFile :=
  files.find? fun file => file.path == path

/-- The members of a manifest's text. -/
def read (content : String) : Journal Members :=
  match Json.read content with
  | .ok (.object members) => return members
  | .ok _ => return []
  | .error .malformed => do
    Journal.warn ("Failed to parse " ++ path) none
    return []
  | .error .tooManyDigits => throw .malformedNumber

/-- The members of the manifest among some files. -/
def consult (files : List SourceFile) : Journal Members :=
  match find? files with
  | none => return []
  | some file => read file.content

/-- A map from names to versions in the order in which names were first put. -/
abbrev Versions := List (String × String)

/-- The entries of a section whose version is a text. -/
def sectionVersions (members : Members) (name : String) : Versions :=
  match Members.get? members name with
  | some (.object entries) => entries.filterMap fun entry =>
    match entry.2 with
    | .text version => some (entry.1, version)
    | _ => none
  | _ => []

/-- The dependencies of both sections; the later section wins. -/
def dependencies (members : Members) : Versions :=
  (sectionVersions members "dependencies" ++ sectionVersions members "devDependencies").foldl
    (fun versions entry => Entries.put entry.1 entry.2 versions) []

/-- The name of the executable: the first one listed, or the package's own name
without its scope. -/
def binaryName (members : Members) : String :=
  match Members.get? members "bin" with
  | some (.object ((name, _) :: _)) => name
  | some (.text _) =>
    match Members.get? members "name" with
    | some (.text name) =>
      if name.isEmpty then "cli"
      else String.ofList ((name.toList.splitOn '/').getLast?.getD [])
    | _ => "cli"
  | _ => "cli"

end ScreenAtlas.Manifest
