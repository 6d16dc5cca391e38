import ScreenAtlas.Disk.Path

/-!
# Faults

Everything that can go wrong, by cause. The wording that users see is in one
place; faults that have no wording of their own end a run as they are.
-/
namespace ScreenAtlas

/-- What stands in the way of reading or writing a file. -/
inductive Obstacle where
  /-- There is no such file. -/
  | missing
  /-- There is a folder in place of the file. -/
  | isFolder
  /-- A file stands where a folder is needed. -/
  | notFolder
  /-- A file stands where a folder is to be made. -/
  | alreadyExists
  /-- The bytes of the file are no text. -/
  | undecodable
  deriving DecidableEq, Repr

/-- The obstacle in words. -/
def Obstacle.reason : Obstacle → String
  | missing => "no such file"
  | isFolder => "is a directory"
  | notFolder => "not a directory"
  | alreadyExists => "file exists"
  | undecodable => "not a UTF-8 text"

/-- Why a file of a repository cannot be retrieved. -/
inductive RetrievalCause where
  /-- The path leads out of the repository. -/
  | escapesRoot
  /-- The repository itself is no folder. -/
  | rootIsNoFolder
  /-- Something stands in the way of reading the file. -/
  | blocked (obstacle : Obstacle)
  /-- The provider gives a reason of its own. -/
  | other (reason : String)
  deriving DecidableEq, Repr

/-- The reason in words. -/
def RetrievalCause.reason : RetrievalCause → String
  | escapesRoot => "path escapes the repository root"
  | rootIsNoFolder => "repository path is not a directory"
  | blocked obstacle => obstacle.reason
  | other reason => reason

/-- Why the settings cannot be used. -/
inductive SettingsCause where
  /-- The settings file cannot be read. -/
  | unreadable
  /-- The settings file is malformed. -/
  | malformed
  /-- The settings file holds something else than a mapping. -/
  | noMapping
  deriving DecidableEq, Repr

/-- What can go wrong. -/
inductive Fault where
  /-- A file of a repository cannot be retrieved. -/
  | retrieval (path : Path) (cause : RetrievalCause)
  /-- The settings cannot be used. -/
  | settings (cause : SettingsCause)
  /-- No analysis is stored under an identifier. -/
  | unknownAnalysis (id : String)
  /-- The number of files is limited to less than none. -/
  | negativeLimit
  /-- Something stands in the way of keeping or finding a record. -/
  | blocked (obstacle : Obstacle)
  /-- A path holds the character that no path can hold. -/
  | malformedPath
  /-- A path holds half of a pair that cannot be written as bytes. -/
  | unencodablePath
  /-- The home folder that a path starts from is not known. -/
  | unknownHome
  /-- A number is malformed or has too many digits. -/
  | malformedNumber
  /-- A value has the wrong type. -/
  | wrongType
  /-- A number is too large for its type. -/
  | numberTooLarge
  /-- A number has no characters at all. -/
  | emptyNumber
  /-- A word is no truth value. -/
  | unknownWord
  /-- A text is no date. -/
  | malformedDate
  deriving DecidableEq, Repr

/-- The name of the settings file. -/
def settingsFile : String := ".screenflow.yml"

/-- What a fault that ends a run as it is comes from. -/
def Fault.cause : Fault → String
  | retrieval path _ => "no file " ++ path.shown
  | settings _ => "no settings"
  | unknownAnalysis id => "no analysis " ++ id
  | negativeLimit => "negative limit"
  | blocked obstacle => obstacle.reason
  | malformedPath => "malformed path"
  | unencodablePath => "path that cannot be encoded"
  | unknownHome => "no home directory"
  | malformedNumber => "malformed number"
  | wrongType => "value of the wrong type"
  | numberTooLarge => "number too large"
  | emptyNumber => "empty number"
  | unknownWord => "unknown truth value"
  | malformedDate => "malformed date"

/-- The wording of a fault that is reported to the user; none for faults that end
a run as they are. -/
def Fault.message? : Fault → Option String
  | retrieval path cause => some ("Failed to read " ++ path.shown ++ ": " ++ cause.reason)
  | settings .unreadable => some ("Failed to read " ++ settingsFile)
  | settings .malformed => some ("Failed to parse " ++ settingsFile)
  | settings .noMapping => some (settingsFile ++ " must contain a mapping at the root")
  | unknownAnalysis id => some ("Analysis '" ++ id ++ "' not found")
  | negativeLimit => some "--limit must not be negative"
  | _ => none

end ScreenAtlas
