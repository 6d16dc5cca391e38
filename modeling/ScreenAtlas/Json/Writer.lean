import ScreenAtlas.Json.Basic
import ScreenAtlas.Number.Decimal
import ScreenAtlas.Number.Numeral
import ScreenAtlas.Text.Quote

/-!
# Writing data text

Data is written in seven-bit characters: everything else is escaped by its
sixteen-bit units, a pair of them above the first plane. Stored and printed
documents give each item and member a line of its own, indented by two spaces per
level; a stored document also orders the members of each object by name. A second
form shows a value inside running text. Whole numbers are written up to a limit of digits
(`isPrintable`); who stores a document asks for that first.
-/
namespace ScreenAtlas.Json

/-- One sixteen-bit unit as an escape. -/
def writeUnit (unit : Nat) : List Char := '\\' :: 'u' :: Text.hexadecimal 4 unit

/-- One character inside a written text. -/
def writeChar (c : Char) : List Char :=
  if c == '"' then ['\\', '"']
  else if c == '\\' then ['\\', '\\']
  else if c == '\n' then ['\\', 'n']
  else if c == '\r' then ['\\', 'r']
  else if c == '\t' then ['\\', 't']
  else if c == '\x0c' then ['\\', 'f']
  else if c == '\x08' then ['\\', 'b']
  else if 0x20 ≤ c.toNat && c.toNat ≤ 0x7E then [c]
  else if c.toNat < 0x10000 then writeUnit c.toNat
  else
    let offset := c.toNat - 0x10000
    writeUnit (0xD800 + offset / 0x400) ++ writeUnit (0xDC00 + offset % 0x400)

/-- A text between its marks. -/
def writeText (text : String) : List Char :=
  '"' :: (text.toList.flatMap writeChar ++ ['"'])

/-- How documents name the numbers without digits. -/
def documentWords : Double.SpecialWords := ⟨"Infinity", "-Infinity", "NaN"⟩

/-- A line break and the indentation of a level. -/
def newLine (level : Nat) : List Char := '\n' :: List.replicate (2 * level) ' '

/-- Order of member names by character. -/
def nameBefore (left right : String × Json) : Bool :=
  left.1 < right.1 || left.1 == right.1

/-- The members of an object with their names in order. -/
def sortMembers (members : Members) : Members := members.mergeSort nameBefore

mutual

/-- A value with the members of every object ordered by name. -/
def sorted : Json → Json
  | .list items => .list (sortedItems items)
  | .object members => .object (sortMembers (sortedMembers members))
  | value => value

/-- The items of a list, each with its objects ordered. -/
def sortedItems : List Json → List Json
  | [] => []
  | item :: items => sorted item :: sortedItems items

/-- The members of an object, each value with its objects ordered. -/
def sortedMembers : List (String × Json) → List (String × Json)
  | [] => []
  | (name, value) :: members => (name, sorted value) :: sortedMembers members

end

mutual

/-- A value over several lines; `level` counts the enclosing lists and objects. -/
def writeIndented (level : Nat) : Json → List Char
  | .null => "null".toList
  | .bool value => if value then "true".toList else "false".toList
  | .int value => value.repr.toList
  | .double value => (Double.render documentWords value).toList
  | .text value => writeText value
  | .list [] => ['[', ']']
  | .list (item :: items) =>
    '[' :: newLine (level + 1) ++ writeIndented (level + 1) item ++
      writeItems (level + 1) items ++ newLine level ++ [']']
  | .object [] => ['\x7b', '\x7d']
  | .object ((name, value) :: members) =>
    '\x7b' :: newLine (level + 1) ++ writeText name ++ [':', ' '] ++
      writeIndented (level + 1) value ++ writeMembers (level + 1) members ++ newLine level ++
      ['\x7d']

/-- The remaining items of a list, each behind a comma on its own line. -/
def writeItems (level : Nat) : List Json → List Char
  | [] => []
  | item :: items => ',' :: newLine level ++ writeIndented level item ++ writeItems level items

/-- The remaining members of an object, each behind a comma on its own line. -/
def writeMembers (level : Nat) : List (String × Json) → List Char
  | [] => []
  | (name, value) :: members =>
    ',' :: newLine level ++ writeText name ++ [':', ' '] ++ writeIndented level value ++
      writeMembers level members

end

mutual

/-- No whole number in the value has more digits than a number that is written may have. -/
def isPrintable : Json → Bool
  | .int value => Double.digitCount value.natAbs ≤ Numeral.digitLimit
  | .list items => arePrintable items
  | .object members => membersPrintable members
  | _ => true

/-- So it is with all items of a list. -/
def arePrintable : List Json → Bool
  | [] => true
  | item :: items => item.isPrintable && arePrintable items

/-- And with the values of all members of an object. -/
def membersPrintable : List (String × Json) → Bool
  | [] => true
  | (_, value) :: members => value.isPrintable && membersPrintable members

end

/-- A document with one item or member per line. -/
def document (value : Json) : String := String.ofList (writeIndented 0 value)

mutual

/-- A value inside running text. -/
def showValue : Json → List Char
  | .null => "None".toList
  | .bool value => if value then "True".toList else "False".toList
  | .int value => value.repr.toList
  | .double value => (Double.render Double.plainWords value).toList
  | .text value => Text.showText value.toList
  | .list [] => ['[', ']']
  | .list (item :: items) => '[' :: showValue item ++ showItems items ++ [']']
  | .object [] => ['\x7b', '\x7d']
  | .object ((name, value) :: members) =>
    '\x7b' :: Text.showText name.toList ++ [':', ' '] ++ showValue value ++ showMembers members ++
      ['\x7d']

/-- The remaining items of a list inside running text. -/
def showItems : List Json → List Char
  | [] => []
  | item :: items => ',' :: ' ' :: showValue item ++ showItems items

/-- The remaining members of an object inside running text. -/
def showMembers : List (String × Json) → List Char
  | [] => []
  | (name, value) :: members =>
    ',' :: ' ' :: Text.showText name.toList ++ [':', ' '] ++ showValue value ++ showMembers members

end

/-- A value taken as a text: a text is itself, anything else is what running text
shows for it. -/
def asText : Json → String
  | .text value => value
  | value => String.ofList (showValue value)

end ScreenAtlas.Json
