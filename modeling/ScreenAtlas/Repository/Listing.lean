import ScreenAtlas.Repository.Ignore

/-!
# Listing a repository

The files of a repository are found by walking its folders. A folder that is left
out is not entered, so a rule can take a file back in only when all the folders
above it are walked. Folders of tools and files of desktops are left out whatever
the rules say. The paths are listed in the order of their characters.
-/
namespace ScreenAtlas.Repository

/-- Folders that are never entered. -/
def excludedFolders : List String :=
  [".git", ".hg", ".svn", "node_modules", "dist", "build", ".next", ".nuxt", "coverage",
    ".screenflow"]

/-- Files that are never listed. -/
def excludedFiles : List String := [".DS_Store", "Thumbs.db"]

/-- A path from the names on it. -/
def pathOf (names : List String) : String := "/".intercalate names

mutual

/-- The files of an entry of a folder; `above` are the names that lead to the folder. -/
def filesOf (rules : List IgnoreRule) (above : List String) (name : String) :
    FileTree → List String
  | .file _ =>
    let path := pathOf (above ++ [name])
    if excludedFiles.contains name || isIgnored rules path false then [] else [path]
  | .folder entries =>
    let path := pathOf (above ++ [name])
    if excludedFolders.contains name || isIgnored rules path true then []
    else filesWithin rules (above ++ [name]) entries

/-- The files of the entries of a folder. -/
def filesWithin (rules : List IgnoreRule) (above : List String) :
    List (String × FileTree) → List String
  | [] => []
  | (name, entry) :: rest => filesOf rules above name entry ++ filesWithin rules above rest

end

/-- The files of a repository in the order of their paths. -/
def listFiles (rules : List IgnoreRule) : FileTree → List String
  | .file _ => []
  | .folder entries => (filesWithin rules [] entries).mergeSort fun a b => decide (a ≤ b)

end ScreenAtlas.Repository
