import ScreenAtlas.Text.Blank
import ScreenAtlas.Text.Lines
import ScreenAtlas.Text.Scan

/-!
# The revision under version control

Version control keeps the current revision in a small file. It holds the revision
itself or the name of a reference; the revision of a reference stands in a file of
its own or in a list of references.
-/
namespace ScreenAtlas.Repository

open ScreenAtlas.Text

/-- What the file of the current revision says. -/
inductive Head where
  /-- The revision itself. -/
  | revision (name : String)
  /-- The reference that holds the revision. -/
  | reference (name : String)
  deriving DecidableEq, Repr

/-- Reads the file of the current revision. -/
def Head.ofText (text : String) : Head :=
  match literal? "ref:" text.toList with
  | some name => .reference (String.ofList (trim name))
  | none => .revision (String.ofList (trim text.toList))

/-- The revision of a reference in a list of references. -/
def listedRevision? (list name : String) : Option String :=
  (lines list.toList).findSome? fun line =>
    match words line with
    | [revision, reference] =>
      if reference == name.toList then some (String.ofList revision) else none
    | _ => none

end ScreenAtlas.Repository
