import ScreenAtlas.Route.Entry

/-!
# From declarations to full paths

Declarations nest as their spans do: the parent of a declaration is the smallest
span that strictly contains it. Declarations are placed one after the other in
the order of their starts, longer spans first, so a parent is placed before
everything inside it. A declaration that nothing contains and whose path is
relative hangs below the last rooted declaration of the top level before it.
-/
namespace ScreenAtlas.Route

/-- A declaration that has been given its full path. -/
structure Placement where
  declaration : Declaration
  fullPath : String
  topLevel : Bool
  skip : Bool
  deriving DecidableEq, Repr

namespace Placement

/-- The first of the smallest spans that strictly contain a declaration. -/
def container (placed : List Placement) (declaration : Declaration) : Option Placement :=
  placed.foldl
    (fun best candidate =>
      if candidate.declaration.start < declaration.start &&
          candidate.declaration.stop > declaration.stop then
        match best with
        | none => some candidate
        | some found =>
          if candidate.declaration.span < found.declaration.span then some candidate else best
      else best)
    none

/-- The last rooted declaration of the top level that starts before a given one. -/
def implicitParent (placed : List Placement) (declaration : Declaration) : Option Placement :=
  placed.reverse.find? fun candidate =>
    candidate.topLevel && candidate.declaration.start < declaration.start &&
      isRooted candidate.declaration.rawPath && candidate.declaration.rawPath != wildcard

/-- Places a declaration after those that precede it. -/
def place (placed : List Placement) (declaration : Declaration) : Placement :=
  let enclosing := container placed declaration
  let parent :=
    if enclosing.isNone && !isRooted declaration.rawPath && declaration.rawPath != wildcard then
      implicitParent placed declaration
    else enclosing
  { declaration
    fullPath := join (parent.map (·.fullPath)) declaration.rawPath
    topLevel := enclosing.isNone
    skip := declaration.skip || declaration.rawPath == wildcard }

end Placement

/-- Earlier starts come first, and of equal starts the longer span. -/
def startsBefore (left right : Declaration) : Bool :=
  left.start < right.start || (left.start == right.start && right.span ≤ left.span)

/-- The declarations in the order in which they are placed. -/
def inOrder (declarations : List Declaration) : List Declaration :=
  declarations.mergeSort startsBefore

/-- Every declaration with its full path, in the order of placing. -/
def placeAll (declarations : List Declaration) : List Placement :=
  (inOrder declarations).foldl (fun placed next => placed ++ [Placement.place placed next]) []

/-- The distinct routes of placed declarations below a basename. -/
def targets (basename : Option String) (placed : List Placement) : List Target :=
  distinct ((placed.filter fun placement => !placement.skip).map fun placement =>
    { path := underBasename basename placement.fullPath
      component := placement.declaration.component })

/-- The routes that a list of declarations makes navigable. -/
def resolve (declarations : List Declaration) (basename : Option String) : List Target :=
  targets basename (placeAll declarations)

end ScreenAtlas.Route
