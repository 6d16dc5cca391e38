import ScreenAtlas.Number.Double

/-!
# Values of documents

A document of settings holds one value. The kinds of values that there are stand here, apart
from any way of reading them: what depends on documents takes the reading as a parameter
(`Reading`), so that it holds whatever a document is read as.

Texts are made of characters and hold no lone halves of pairs. A collection that contains
itself is unrolled as far as settings look into it.
-/
namespace ScreenAtlas.Yaml

/-- Why a document cannot be read. -/
inductive ReadError where
  /-- The document is malformed. -/
  | malformed
  /-- A number or a date has no value. -/
  | noValue
  /-- A number is too large. -/
  | tooLarge
  /-- A number has no characters. -/
  | noCharacters
  /-- A word is no truth value. -/
  | noTruthValue
  /-- A text is no date. -/
  | noDate
  deriving DecidableEq, Repr

/-- A value of a document. -/
inductive Value where
  | null
  | bool (value : Bool)
  | int (value : Int)
  | double (value : Double)
  | text (value : String)
  | bytes (values : List UInt8)
  | date
  | list (items : List Value)
  | map (pairs : List (Value × Value))
  | set

namespace Value

/-- The value can be a key. -/
def isKey : Value → Bool
  | list _ | map _ | set => false
  | _ => true

/-- The value under a text in the pairs of a map; of several the last counts. -/
def get? (pairs : List (Value × Value)) (name : String) : Option Value :=
  pairs.reverse.findSome? fun
    | (.text key, value) => if key == name then some value else none
    | _ => none

end Value

/-- How the text of a document is read: as a value, or not at all. -/
abbrev Reading := List Char → Except ReadError Value

end ScreenAtlas.Yaml
