import ScreenAtlas.Json.Basic

/-!
# Screens

A screen is a page, view or command that the analysed application offers. It names
the file it comes from, the screens it leads to and the flows that its file holds.
Three further values are kept as they were given and are absent when null.
-/
namespace ScreenAtlas

/-- A page, view or command of an application. -/
structure Screen where
  id : String
  name : String
  path : String
  filePath : String
  kind : String
  framework : String
  flows : List String := []
  navigatesTo : List String := []
  componentCode : Json := .null
  lastAnalyzedCommit : Json := .null
  screenshotStatus : Json := .null

/-- A source file: its path in the repository and its text. -/
structure SourceFile where
  path : String
  content : String

end ScreenAtlas
