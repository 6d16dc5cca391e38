import ScreenAtlas.Script.Tree
import ScreenAtlas.Text.Case
import ScreenAtlas.Text.Scan

/-!
# Script files

A file's name decides whether it is a script and in which dialect it is read. The
case of letters in the name does not matter.
-/
namespace ScreenAtlas.Script

/-- Endings of script files. -/
def endings : List String := [".js", ".jsx", ".mjs", ".cjs", ".ts", ".tsx"]

/-- The path ends in one of the given endings, written in small letters. -/
def endsInAny (endings : List (List Char)) (path : String) : Bool :=
  endings.any fun ending => (Text.before? ending (Text.small path.toList)).isSome

/-- The file is a script. -/
def isScript (path : String) : Bool := endsInAny (endings.map String.toList) path

/-- The dialect of a file: type assertions in angle brackets are only read where
no markup can occur. -/
def dialectOf (path : String) : Dialect :=
  if endsInAny [".ts".toList] path then .typescript else .tsx

/-- The name of a dialect. -/
def Dialect.name : Dialect → String
  | .tsx => "tsx"
  | .typescript => "typescript"

end ScreenAtlas.Script
