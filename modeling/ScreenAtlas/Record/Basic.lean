import ScreenAtlas.Flow.Basic
import ScreenAtlas.Framework.Basic
import ScreenAtlas.Screen.Basic

/-!
# Results and records

What an analysis answers with, and what is kept of it under its identifier.
-/
namespace ScreenAtlas

/-- What an analysis answers with. -/
structure Result where
  analysisId : String
  commit : String
  screens : List Screen
  flows : List Flow
  framework : Framework

/-- What is kept of an analysis. -/
structure Record where
  analysisId : String
  repo : String
  branch : String
  commit : String
  timestamp : String
  filesAnalyzed : Int
  screens : List Screen
  flows : List Flow
  framework : Framework

end ScreenAtlas
