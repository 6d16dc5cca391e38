import ScreenAtlas.Disk.FileTree
import ScreenAtlas.Repository.Glob
import ScreenAtlas.Text.Blank

/-!
# Ignore rules

A rule leaves files or folders out, or takes them back in when it is a negation.
Of all rules that match a path the last one decides. A rule with a slash at its end
is for folders only, and one that starts with a slash or holds one is matched
against the whole path; any other rule is matched against every name on the path.
-/
namespace ScreenAtlas.Repository

open ScreenAtlas.Text

/-- A rule of an ignore file. -/
structure IgnoreRule where
  pattern : String
  /-- The rule is for folders only. -/
  foldersOnly : Bool
  /-- The rule is for the whole path. -/
  anchored : Bool
  /-- The rule takes back in what it matches. -/
  negated : Bool
  deriving DecidableEq, Repr

namespace IgnoreRule

/-- The rule written by a pattern, unless nothing is left of it. -/
def ofPattern? (negated : Bool) (pattern : List Char) : Option IgnoreRule :=
  let whole := trim pattern
  let foldersOnly := whole.getLast? == some '/'
  let body := if foldersOnly then whole.dropLast else whole
  let anchored := body.head? == some '/'
  let body := if anchored then body.tail else body
  if body.isEmpty then none
  else some { pattern := String.ofList body, foldersOnly, anchored, negated }

/-- The rule matches a path. -/
def covers (rule : IgnoreRule) (path : String) (isFolder : Bool) : Bool :=
  if rule.foldersOnly && !isFolder then false
  else
    let pattern := rule.pattern.toList
    if rule.anchored || pattern.contains '/' then
      globMatches pattern path.toList || (pattern ++ ['/']).isPrefixOf path.toList
    else (path.toList.splitOn '/').any (globMatches pattern)

/-- The rule in a line of an ignore file. Blank lines and remarks have none. -/
def ofLine? (line : List Char) : Option IgnoreRule :=
  match trim line with
  | [] => none
  | '#' :: _ => none
  | '!' :: pattern => ofPattern? true pattern
  | pattern => ofPattern? false pattern

end IgnoreRule

/-- The rules of patterns that leave files out. -/
def excludingRules (patterns : List String) : List IgnoreRule :=
  patterns.filterMap fun pattern => IgnoreRule.ofPattern? false pattern.toList

/-- The last rule that matches decides; a path that no rule matches is kept. -/
def isIgnored (rules : List IgnoreRule) (path : String) (isFolder : Bool) : Bool :=
  rules.foldl (fun ignored rule => if rule.covers path isFolder then !rule.negated else ignored)
    false

/-- The name of the ignore file of a repository. -/
def ignoreFile : String := ".gitignore"

/-- The rules of the ignore file in a folder; none without such a file. -/
def ignoreRules (tree : FileTree) (folder : Location) : Except Fault (List IgnoreRule) :=
  let location := folder ++ [ignoreFile]
  if tree.holds location then
    match tree.readText location with
    | .ok text => .ok ((lines text.toList).filterMap IgnoreRule.ofLine?)
    | .error obstacle => .error (.retrieval (.ofString ignoreFile) (.blocked obstacle))
  else .ok []

end ScreenAtlas.Repository
