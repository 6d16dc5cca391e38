import ScreenAtlas.Number.Double
import ScreenAtlas.Text.Blank
import ScreenAtlas.Text.Digit

/-!
# Numerals in text

A numeral may be padded with blanks, carry a sign, use the digits of any script
and group digits with single underscores. The padding of a numeral is narrower
than the blanks elsewhere: the information separators do not count.
-/
namespace ScreenAtlas.Numeral

open ScreenAtlas.Text

/-- Blanks that may surround a numeral. -/
def isPadding (c : Char) : Bool := isBlank c && !(0x1C ≤ c.toNat && c.toNat ≤ 0x1F)

/-- A numeral in plain form: digits of any script become the ten usual ones. -/
def plain (text : List Char) : List Char :=
  (trimOf isPadding text).map fun c =>
    match digitValue? c with
    | some value => Char.ofNat ('0'.toNat + value)
    | none => c

/-- Splits off a sign; the flag says that it was a minus. -/
def splitSign : List Char → Bool × List Char
  | '-' :: rest => (true, rest)
  | '+' :: rest => (false, rest)
  | text => (false, text)

/-- The digits of a run in which underscores stand singly between digits. -/
def grouped? : List Char → Option (List Char)
  | [] => none
  | [c] => if c.isDigit then some [c] else none
  | c :: '_' :: rest => if c.isDigit then (grouped? rest).map (c :: ·) else none
  | c :: rest => if c.isDigit then (grouped? rest).map (c :: ·) else none

/-- The natural written by decimal digits. -/
def value (digits : List Char) : Nat :=
  digits.foldl (fun total c => 10 * total + (c.toNat - '0'.toNat)) 0

/-- The most digits that a whole number may have. -/
def digitLimit : Nat := 4300

/-- A whole number in decimal digits. -/
def readInt? (text : List Char) : Option Int :=
  let (negative, digits) := splitSign (plain text)
  match grouped? digits with
  | some figures =>
    if digitLimit < figures.length then none
    else if negative then some (-(value figures : Int)) else some (value figures)
  | none => none

/-- The value of a letter or digit in a base above ten. -/
def figureValue (c : Char) : Nat :=
  if c.isDigit then c.toNat - '0'.toNat
  else if c.isAlpha then c.toLower.toNat - 'a'.toNat + 10
  else 36

/-- Digits without the mark for their base, which is one of two letters behind a
zero. -/
def withoutBaseMark (base : Nat) : List Char → List Char
  | '0' :: c :: rest =>
    if (base == 16 && c.toLower == 'x') || (base == 8 && c.toLower == 'o') ||
        (base == 2 && c.toLower == 'b') then rest
    else '0' :: c :: rest
  | text => text

/-- A whole number in digits of a base, without underscores. -/
def readBase? (base : Nat) (text : List Char) : Option Int :=
  let (negative, marked) := splitSign (plain text)
  let digits := withoutBaseMark base marked
  if !digits.isEmpty && digits.all fun c => figureValue c < base then
    let magnitude := digits.foldl (fun total c => base * total + figureValue c) 0
    some (if negative then -(magnitude : Int) else magnitude)
  else none

/-- An optional run of grouped digits and what follows it; none when the run is
malformed. -/
def digitRun? (text : List Char) : Option (List Char × List Char) :=
  let inRun := fun c : Char => c.isDigit || c == '_'
  match text.takeWhile inRun with
  | [] => some ([], text)
  | run => (grouped? run).map fun digits => (digits, text.dropWhile inRun)

/-- The power of ten behind an exponent mark; zero when there is none. -/
def exponent? : List Char → Option Int
  | [] => some 0
  | c :: rest =>
    if c == 'e' || c == 'E' then
      let (negative, digits) := splitSign rest
      (grouped? digits).map fun figures =>
        if negative then -(value figures : Int) else value figures
    else none

/-- A decimal number with an optional fraction and exponent, without its sign. -/
def magnitude? (negative : Bool) (text : List Char) : Option Double := do
  let (whole, rest) ← digitRun? text
  let (fraction, rest) ←
    match rest with
    | '.' :: rest => digitRun? rest
    | _ => some ([], rest)
  if whole.isEmpty && fraction.isEmpty then none
  let power ← exponent? rest
  return Double.ofDecimal negative (value (whole ++ fraction)) (power - fraction.length)

/-- A number: a decimal, an infinity or the word for no number at all. -/
def readDouble? (text : List Char) : Option Double :=
  let (negative, body) := splitSign (plain text)
  let word := String.ofList (body.map Char.toLower)
  if word == "inf" || word == "infinity" then some (.infinite negative)
  else if word == "nan" then some .notANumber
  else magnitude? negative body

end ScreenAtlas.Numeral
