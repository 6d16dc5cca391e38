import ScreenAtlas.Text.Case
import ScreenAtlas.Text.Scan

/-!
# Targets inside the application

A link leads to another screen when its target is an absolute path of the
application itself: not the address of another host and not a script.
-/
namespace ScreenAtlas.Navigation

open ScreenAtlas.Text

/-- The characters of a target lead to a path inside the application. -/
def isInternalChars (target : List Char) : Bool :=
  (literal? "/" target).isSome && (literal? "//" target).isNone &&
    (literal? "/javascript:" (small target)).isNone

/-- The target is an absolute path inside the application. -/
def isInternal (target : String) : Bool := isInternalChars target.toList

/-- Appends a target unless it is listed already. -/
def addTarget (targets : List String) (target : String) : List String :=
  if targets.contains target then targets else targets ++ [target]

/-- The internal ones of some targets in the order in which each is first met. -/
def internalTargets (targets : List String) : List String :=
  (targets.filter isInternal).foldl addTarget []

end ScreenAtlas.Navigation
