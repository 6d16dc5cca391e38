import ScreenAtlas.Text.Scan

/-!
# Tags

A tag says how a node is understood. A plain scalar has the tag that its text
suggests: the words for nothing and for truth values, numbers in several bases,
dates, and two marks that have a meaning as keys.
-/
namespace ScreenAtlas.Yaml

open ScreenAtlas.Text

/-- What the tags of the format itself start with. -/
def tagStart : String := "tag:yaml.org,2002:"

def nullTag : String := tagStart ++ "null"
def boolTag : String := tagStart ++ "bool"
def intTag : String := tagStart ++ "int"
def floatTag : String := tagStart ++ "float"
def dateTag : String := tagStart ++ "timestamp"
def mergeTag : String := tagStart ++ "merge"
def valueTag : String := tagStart ++ "value"
def textTag : String := tagStart ++ "str"
def binaryTag : String := tagStart ++ "binary"
def listTag : String := tagStart ++ "seq"
def mapTag : String := tagStart ++ "map"
def setTag : String := tagStart ++ "set"
def orderedTag : String := tagStart ++ "omap"
def pairsTag : String := tagStart ++ "pairs"

/-- The words for truth values. -/
def truthWords : List String :=
  ["yes", "Yes", "YES", "no", "No", "NO", "true", "True", "TRUE", "false", "False", "FALSE", "on",
    "On", "ON", "off", "Off", "OFF"]

/-- The words for nothing. -/
def nullWords : List String := ["~", "null", "Null", "NULL", ""]

/-- A text without its sign. -/
def unsigned : List Char → List Char
  | '-' :: rest => rest
  | '+' :: rest => rest
  | text => text

/-- The text is not empty and holds only characters of a class. -/
def isRun (belongs : Char → Bool) (text : List Char) : Bool := !text.isEmpty && text.all belongs

/-- A digit or an underscore. -/
def isGrouped (c : Char) : Bool := c.isDigit || c == '_'

/-- A digit of base sixteen or an underscore. -/
def isHexGrouped (c : Char) : Bool :=
  isGrouped c || ('a'.toNat ≤ c.toNat && c.toNat ≤ 'f'.toNat) ||
    ('A'.toNat ≤ c.toNat && c.toNat ≤ 'F'.toNat)

/-- A place of a number of base sixty: one digit, or two of which the first is at
most five. -/
def isSixtieth : List Char → Bool
  | [a] => a.isDigit
  | [a, b] => a.isDigit && a.toNat ≤ '5'.toNat && b.isDigit
  | _ => false

/-- A digit, and further digits and underscores. -/
def isGroupedNumber : List Char → Bool
  | c :: rest => c.isDigit && rest.all isGrouped
  | [] => false

/-- Places of a number of base sixty, at least two. -/
def isSexagesimal (text : List Char) : Bool :=
  match text.splitOn ':' with
  | first :: second :: rest => isGroupedNumber first && (second :: rest).all isSixtieth
  | _ => false

/-- A whole number. -/
def isInteger (text : List Char) : Bool :=
  match unsigned text with
  | ['0'] => true
  | '0' :: 'b' :: rest => isRun (fun c => c == '0' || c == '1' || c == '_') rest
  | '0' :: 'x' :: rest => isRun isHexGrouped rest
  | '0' :: rest => isRun (fun c => ('0'.toNat ≤ c.toNat && c.toNat ≤ '7'.toNat) || c == '_') rest
  | number => isGroupedNumber number || isSexagesimal number

/-- Nothing, or an exponent with a sign. -/
def isSignedExponent : List Char → Bool
  | [] => true
  | e :: sign :: digits =>
    (e == 'e' || e == 'E') && (sign == '-' || sign == '+') && isRun Char.isDigit digits
  | _ => false

/-- What follows the point of a number: digits, underscores and an exponent. -/
def isFraction (text : List Char) : Bool := isSignedExponent (text.dropWhile isGrouped)

/-- A number with a point, the words for infinity, or the word for no number. -/
def isFloat (text : List Char) : Bool :=
  let number := unsigned text
  let whole := number.takeWhile (· != '.')
  let behind := (number.dropWhile (· != '.')).drop 1
  let pointed := number.contains '.'
  (pointed && isGroupedNumber whole && isFraction behind) ||
    (match text with
    | '.' :: c :: rest => c.isDigit && isFraction rest
    | _ => false) ||
    (pointed && isSexagesimal whole && behind.all isGrouped) ||
    [".inf", ".Inf", ".INF"].contains (String.ofList number) ||
    [".nan", ".NaN", ".NAN"].contains (String.ofList text)

/-- The parts of a date, and of a time on it. -/
structure DateParts where
  year : Nat
  month : Nat
  day : Nat
  /-- Month and day have two digits each. -/
  padded : Bool
  time : Option (Nat × Nat × Nat)
  /-- The distance to the reference zone in minutes. -/
  zone : Option Nat

/-- Reads between `least` and `most` digits: as many as there are. -/
def digits? (least most : Nat) (text : List Char) : Option (List Char × List Char) :=
  let run := (text.take most).takeWhile Char.isDigit
  if least ≤ run.length then some (run, text.drop run.length) else none

/-- The number that digits stand for. -/
def number (digits : List Char) : Nat :=
  digits.foldl (fun value c => 10 * value + (c.toNat - '0'.toNat)) 0

/-- The zone at the end of a time, in minutes; none in the outer option when the
text is no zone. -/
def zone? (text : List Char) : Option (Option Nat) :=
  match text with
  | [] => some none
  | _ =>
    match text.dropWhile fun c => c == ' ' || c == '\t' with
    | ['Z'] => some none
    | sign :: rest =>
      if sign == '-' || sign == '+' then do
        let (hours, rest) ← digits? 1 2 rest
        match rest with
        | [] => some (some (60 * number hours))
        | ':' :: rest =>
          let (minutes, rest) ← digits? 2 2 rest
          if rest.isEmpty then some (some (60 * number hours + number minutes)) else none
        | _ => none
      else none
    | [] => none

/-- A time and its zone. -/
def time? (text : List Char) : Option ((Nat × Nat × Nat) × Option Nat) := do
  let (hour, rest) ← digits? 1 2 text
  let rest ← literal? ":" rest
  let (minute, rest) ← digits? 2 2 rest
  let rest ← literal? ":" rest
  let (second, rest) ← digits? 2 2 rest
  let rest :=
    match rest with
    | '.' :: rest => rest.dropWhile Char.isDigit
    | _ => rest
  let zone ← zone? rest
  some ((number hour, number minute, number second), zone)

/-- The parts of a date. -/
def dateParts? (text : List Char) : Option DateParts := do
  let (year, rest) ← digits? 4 4 text
  let rest ← literal? "-" rest
  let (month, rest) ← digits? 1 2 rest
  let rest ← literal? "-" rest
  let (day, rest) ← digits? 1 2 rest
  let date : DateParts :=
    { year := number year, month := number month, day := number day
      padded := month.length == 2 && day.length == 2, time := none, zone := none }
  let timed := fun text =>
    (time? text).map fun (time, zone) => { date with time := some time, zone }
  match rest with
  | [] => some date
  | c :: rest =>
    if c == 'T' || c == 't' then timed rest
    else if c == ' ' || c == '\t' then
      timed (rest.dropWhile fun c => c == ' ' || c == '\t')
    else none

/-- A date that needs no tag. -/
def isDate (text : List Char) : Bool :=
  match dateParts? text with
  | none => false
  | some date => date.time.isSome || date.padded

/-- The tag that the text of a plain scalar suggests. -/
def plainTag (text : List Char) : String :=
  let body := (finalBreak text).1
  let word := String.ofList body
  if truthWords.contains word then boolTag
  else if isFloat body then floatTag
  else if isInteger body then intTag
  else if word == "<<" then mergeTag
  else if nullWords.contains word then nullTag
  else if isDate body then dateTag
  else if word == "=" then valueTag
  else textTag

end ScreenAtlas.Yaml
