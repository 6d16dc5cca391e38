import ScreenAtlas.Text.Ranges

/-!
# Blanks

Blanks are the white space of every script together with the line and paragraph
controls and the four information separators. Trimming, splitting into words and
the gaps that scanners skip all use this one class.
-/
namespace ScreenAtlas.Text

/-- Positions of the blanks. -/
def blankRanges : List (Nat × Nat) :=
  [(0x9, 0xD), (0x1C, 0x20), (0x85, 0x85), (0xA0, 0xA0), (0x1680, 0x1680), (0x2000, 0x200A),
    (0x2028, 0x2029), (0x202F, 0x202F), (0x205F, 0x205F), (0x3000, 0x3000)]

/-- The character is white space. -/
def isBlank (c : Char) : Bool := inRanges blankRanges c

/-- The text after its leading blanks. -/
def skipBlanks (text : List Char) : List Char := text.dropWhile isBlank

/-- The text without the trailing characters of a class. -/
def dropTrailing (belongs : Char → Bool) (text : List Char) : List Char :=
  (text.reverse.dropWhile belongs).reverse

/-- The text without the leading and trailing characters of a class. -/
def trimOf (belongs : Char → Bool) (text : List Char) : List Char :=
  dropTrailing belongs (text.dropWhile belongs)

/-- The text without its leading and trailing blanks. -/
def trim (text : List Char) : List Char := trimOf isBlank text

/-- Collects the runs outside a class; `current` holds the run being read, last
character first. The text may be in any alphabet. -/
def fieldsFrom {α : Type} (separates : α → Bool) (current : List α) : List α → List (List α)
  | [] => if current.isEmpty then [] else [current.reverse]
  | c :: rest =>
    if separates c then
      if current.isEmpty then fieldsFrom separates [] rest
      else current.reverse :: fieldsFrom separates [] rest
    else fieldsFrom separates (c :: current) rest

/-- The non-empty runs of characters outside a class, in order. -/
def fields {α : Type} (separates : α → Bool) (text : List α) : List (List α) :=
  fieldsFrom separates [] text

/-- The words of a text: its runs of characters that are not blank. -/
def words (text : List Char) : List (List Char) := fields isBlank text

end ScreenAtlas.Text

namespace ScreenAtlas

/-- A text without its leading and trailing blanks. -/
def trimmed (text : String) : String := String.ofList (Text.trim text.toList)

end ScreenAtlas
