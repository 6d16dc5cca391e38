import ScreenAtlas.Text.Blank

/-!
# Route paths

A route path in canonical form starts with a slash, holds no two slashes in a row
and ends in one only when it is the root itself. Normalization brings any text
into this form; surrounding blanks do not count, and a lone wildcard stands for
the root. A router's basename is prefixed onto canonical paths only, segment by
segment.
-/
namespace ScreenAtlas.Route

open ScreenAtlas.Text

/-- Leaves one slash of every run of slashes. -/
def collapseSlashes : List Char → List Char
  | [] => []
  | c :: rest =>
    if c == '/' && rest.head? == some '/' then collapseSlashes rest
    else c :: collapseSlashes rest

/-- The text without its trailing slashes. -/
def dropTrailingSlashes (path : List Char) : List Char := dropTrailing (· == '/') path

/-- The text with a slash in front, unless it has one. -/
def withLeadingSlash (path : List Char) : List Char :=
  if path.head? == some '/' then path else '/' :: path

/-- The canonical form of a path, character by character. -/
def normalizeChars (path : List Char) : List Char :=
  if path.isEmpty || trim path == ['*'] then ['/']
  else
    let collapsed := collapseSlashes (withLeadingSlash (trim path))
    let result :=
      if 1 < collapsed.length && collapsed.getLast? == some '/' then dropTrailingSlashes collapsed
      else collapsed
    if result.isEmpty then ['/'] else result

/-- The canonical form of a path. -/
def normalize (path : String) : String := String.ofList (normalizeChars path.toList)

/-- The path that matches everything. -/
def wildcard : String := "*"

/-- The path starts at the root. -/
def isRooted (path : String) : Bool := path.toList.head? == some '/'

/-- A canonical path below a router's basename. A basename of slashes only is no
basename. -/
def underBasename (basename : Option String) (path : String) : String :=
  match basename with
  | none => path
  | some basename =>
    let base := dropTrailingSlashes basename.toList
    if base.isEmpty then path
    else
      let tail := if path == "/" then [] else path.toList
      String.ofList (normalizeChars (withLeadingSlash base ++ tail))

/-- A canonical path without one trailing splat segment. -/
def withoutSplat (path : String) : String :=
  match path.toList.reverse with
  | '*' :: '/' :: reversed => String.ofList (normalizeChars reversed.reverse)
  | _ => path

/-- The full path of a declaration: a rooted path stands for itself, any other
one is joined to the parent's full path, or to the root without a parent. -/
def join (parent : Option String) (raw : String) : String :=
  let joined :=
    if isRooted raw then raw.toList
    else
      match parent with
      | some parent => dropTrailingSlashes parent.toList ++ '/' :: raw.toList
      | none => '/' :: raw.toList
  withoutSplat (String.ofList (normalizeChars joined))

/-- The non-empty segments of a path. -/
def segments (path : String) : List String := (fields (· == '/') path.toList).map String.ofList

end ScreenAtlas.Route
