/-!
# Settings

What a repository can set for its analysis, with the values that hold when nothing
is set.
-/
namespace ScreenAtlas

/-- A route that is listed in the settings. -/
structure FallbackRoute where
  path : String
  name : String
  deriving DecidableEq, Repr

/-- The settings of an analysis. -/
structure Settings where
  /-- How many files are read at most. -/
  fileLimit : Int := 200
  /-- After how many files the progress is noted; never when zero. -/
  progressEvery : Int := 25
  /-- An application without any routing counts as one screen. -/
  singlePageFallback : Bool := true
  /-- The endings of files that are read. -/
  supportedExtensions : List String := ["ts", "tsx", "js", "jsx", "vue"]
  /-- Further components that only lay out what they enclose. -/
  layoutWrappers : List String := []
  /-- The screens of an application in which none are found. -/
  fallbackRoutes : List FallbackRoute := []
  /-- Patterns of files that are left out. -/
  excludePaths : List String := []
  deriving DecidableEq, Repr

end ScreenAtlas
