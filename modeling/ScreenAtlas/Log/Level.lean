import ScreenAtlas.Log.Note
import ScreenAtlas.Text.Blank
import ScreenAtlas.Text.Case

/-!
# Levels

The names of levels, and the level from which notes are shown. A request for more
notes wins over one for fewer, and both win over the environment, which counts only
when it names a level.
-/
namespace ScreenAtlas.Level

/-- The level of notes for finding mistakes. -/
def debug : Level := 10

/-- Names of levels. -/
def named : List (String × Level) :=
  [("CRITICAL", 50), ("FATAL", 50), ("ERROR", 40), ("WARN", 30), ("WARNING", 30), ("INFO", 20),
    ("DEBUG", 10), ("NOTSET", 0)]

/-- The level with a name. -/
def ofName? (name : String) : Option Level := named.lookup name

/-- The name that a level is shown with. -/
def label (level : Level) : String :=
  if level == 50 then "CRITICAL"
  else if level == 40 then "ERROR"
  else if level == 30 then "WARNING"
  else if level == 20 then "INFO"
  else if level == 10 then "DEBUG"
  else if level == 0 then "NOTSET"
  else "Level " ++ toString level

/-- The variable of the environment that names a level. -/
def environmentName : String := "SCREENFLOW_LOG_LEVEL"

/-- The level from which notes are shown, given the value of the variable. -/
def threshold (verbose quiet : Bool) (value : Option String) : Level :=
  if verbose then debug
  else if quiet then warning
  else
    let name := String.ofList (Text.capital (Text.trim (value.getD "").toList))
    (ofName? name).getD info

/-- Notes of this level are shown. Without a threshold only warnings count, and a
level that is not above zero is never shown. -/
def isShown (threshold level : Level) : Bool :=
  0 < level && (if threshold == 0 then warning else threshold) ≤ level

end ScreenAtlas.Level
