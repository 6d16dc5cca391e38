import ScreenAtlas.Repository.Listing

/-!
# Source providers

A provider answers three questions about a repository: which revision it is at,
which files it has, and what is in them. The provider of a folder on the disk
reads nothing outside of that folder.
-/
namespace ScreenAtlas.Repository

open ScreenAtlas.Text

/-- What an analysis asks about a repository. -/
structure Provider where
  /-- The revision of the repository. -/
  revision : Except Fault String
  /-- The paths of its files. -/
  listing : Except Fault (List String)
  /-- The text of one of its files. -/
  read : String → Except Fault String

/-- The revision of a folder that is under no version control. -/
def localRevision : String := "local"

/-- The revision that version control prints, if there is any. -/
def revisionOf (printed : Option String) : String :=
  match (trim (printed.getD "").toList) with
  | [] => localRevision
  | revision => String.ofList revision

/-- A folder of the disk that is analyzed. -/
structure Checkout where
  /-- The disk. -/
  tree : FileTree
  /-- The repository as it was named. -/
  repo : String
  /-- The folder of the repository. -/
  root : Location
  /-- Patterns of files to leave out. -/
  exclude : List String
  /-- What version control prints as the revision. -/
  printed : Option String := none

namespace Checkout

/-- Answers only when the repository is a folder. -/
def guarded {α : Type} (checkout : Checkout) (answer : Except Fault α) : Except Fault α :=
  if checkout.tree.hasFolder checkout.root then answer
  else .error (.retrieval (.ofString checkout.repo) .rootIsNoFolder)

/-- The revision of the folder. -/
def revision (checkout : Checkout) : Except Fault String :=
  checkout.guarded (.ok (revisionOf checkout.printed))

/-- The files of the folder. -/
def listing (checkout : Checkout) : Except Fault (List String) :=
  match checkout.tree.lookup checkout.root with
  | .ok (.folder entries) => do
    let rules ← ignoreRules checkout.tree checkout.root
    return listFiles (rules ++ excludingRules checkout.exclude) (.folder entries)
  | _ => .error (.retrieval (.ofString checkout.repo) .rootIsNoFolder)

/-- The fault of a step that cannot be asked for: its name cannot be written as bytes, or holds
the character that no path can hold. -/
def stepFault? (step : Path) : Option Fault :=
  if step.any fun point => point.bytes?.isNone then some .unencodablePath
  else if step.any fun point => Location.isForbidden point.shown then some .malformedPath
  else none

/-- The text of a file below the folder. The disk is asked about the steps of the path one by
one while it is resolved, and the first that cannot be asked for ends the reading, whether or
not the path leads out of the folder. -/
def read (checkout : Checkout) (path : Path) : Except Fault String :=
  checkout.guarded <|
    match path.steps.findSome? stepFault? with
    | some fault => .error fault
    | none =>
      let location := Path.resolve checkout.root path
      if Location.isBelow (Path.names checkout.root) location then
        (checkout.tree.readText (location.map Path.onDisk)).mapError fun obstacle =>
          .retrieval path (.blocked obstacle)
      else .error (.retrieval path .escapesRoot)

/-- The provider of the folder. -/
def provider (checkout : Checkout) : Provider :=
  { revision := checkout.revision, listing := checkout.listing
    read := fun path => checkout.read (.ofString path) }

end Checkout

end ScreenAtlas.Repository
