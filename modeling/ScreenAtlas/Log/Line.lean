import ScreenAtlas.Log.Level

/-!
# Lines of notes

How a note is written on the console and in a log file.
-/
namespace ScreenAtlas

/-- The name under which notes are written. -/
def logName : String := "screenflow"

/-- The name of a part of the program in a log file. -/
def logNameOf : Option String → String
  | some part => if part.isEmpty then logName else logName ++ "." ++ part
  | none => logName

/-- The line of a note on the console. -/
def consoleLine (level : Level) (message : String) : String :=
  "[" ++ logName ++ "] " ++ level.label ++ " " ++ message

/-- The line of a note in a log file. -/
def fileLine (time : String) (part : Option String) (level : Level) (message : String) : String :=
  time ++ " " ++ level.label ++ " " ++ logNameOf part ++ ": " ++ message

/-- The notes that are shown from a level on. -/
def shownNotes (threshold : Level) (notes : List Note) : List Note :=
  notes.filter fun note => threshold.isShown note.level

end ScreenAtlas
