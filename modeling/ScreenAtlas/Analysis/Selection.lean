import ScreenAtlas.Framework.Manifest
import ScreenAtlas.Settings.Basic
import ScreenAtlas.Text.Case

/-!
# Selecting files

Of the files that a repository lists, those with a supported ending are read, up to
a limit and in their order. The manifest is read in any case, and first.
-/
namespace ScreenAtlas.Analysis

/-- The path ends with a point and one of the endings, in letters of any case. -/
def isSupported (extensions : List String) (path : String) : Bool :=
  extensions.any fun extension =>
    ('.' :: Text.small extension.toList).isSuffixOf (Text.small path.toList)

/-- The items up to a limit. A limit below zero leaves out that many at the end. -/
def upTo {α : Type} (limit : Int) (items : List α) : List α :=
  if 0 ≤ limit then items.take limit.toNat else items.take (items.length - limit.natAbs)

/-- The paths that an analysis reads. -/
def selectPaths (settings : Settings) (paths : List String) : List String :=
  let supported := paths.filter fun path =>
    path != Manifest.path && isSupported settings.supportedExtensions path
  let chosen := upTo settings.fileLimit supported
  if paths.contains Manifest.path then Manifest.path :: chosen else chosen

end ScreenAtlas.Analysis
