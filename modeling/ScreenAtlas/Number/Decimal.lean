import ScreenAtlas.Number.Double

/-!
# Decimal text of doubles

Writing a double has two parts. First the digits are chosen: the fewest that read
back as the same double, and of those the ones nearest to it. A decimal reads
back when rounding it to the nearest double gives the same place, so the choice
is a search over growing digit counts with the reader itself as the test. Then
the digits are laid out: positionally for moderate sizes and with an exponent
otherwise.
-/
namespace ScreenAtlas.Double

/-- A decimal `digits * 10 ^ scale`. -/
structure Decimal where
  digits : Nat
  scale : Int

/-- The decimal reads back as the magnitude at a place. -/
def Decimal.readsAs (decimal : Decimal) (place : Nat) : Bool :=
  match ofDecimal false decimal.digits decimal.scale with
  | .finite _ found => found.val == place
  | _ => false

/-- The magnitude at a place over a power of ten, as a quotient of naturals. -/
def scaledQuotient (place : Nat) (power : Int) : Nat × Nat :=
  let (top, bottom) :=
    if exponent place < 0 then (significand place, twoTo (-(exponent place)).toNat)
    else (significand place * twoTo (exponent place).toNat, 1)
  if power < 0 then (top * tenTo (-power).toNat, bottom) else (top, bottom * tenTo power.toNat)

/-- The magnitude at a place lies below a power of ten. -/
def belowPower (place : Nat) (power : Int) : Bool :=
  let (top, bottom) := scaledQuotient place power
  top < bottom

/-- The least power of ten above a positive magnitude, found by counting up from
a lower bound. -/
def decimalScale (place : Nat) : Nat → Int → Int
  | 0, power => power
  | steps + 1, power =>
    if belowPower place power then power else decimalScale place steps (power + 1)

/-- A lower bound for the power of ten of a magnitude, from its binary size. -/
def decimalScaleBound (place : Nat) : Int :=
  let binary : Int := (significand place).log2 + exponent place
  binary * 30103 / 100000 - 1

/-- The nearest decimal of the given digit count that reads back, if one does. -/
def decimalOfLength? (place : Nat) (power : Int) (count : Nat) : Option Decimal :=
  let scale := power - count
  let (top, bottom) := scaledQuotient place scale
  let lower : Decimal := ⟨top / bottom, scale⟩
  let upper : Decimal := ⟨top / bottom + 1, scale⟩
  match lower.readsAs place, upper.readsAs place with
  | true, true =>
    let rest := 2 * (top % bottom)
    if rest < bottom || (rest == bottom && lower.digits % 2 == 0) then some lower else some upper
  | true, false => some lower
  | false, true => some upper
  | false, false => none

/-- The fewest digits that read back as the magnitude at a place. Seventeen
digits always do. -/
def shortest (place : Nat) : Decimal :=
  if place == 0 then ⟨0, 0⟩
  else
    let power := decimalScale place 8 (decimalScaleBound place)
    ((List.range 17).findSome? fun count => decimalOfLength? place power (count + 1)).getD
      ⟨significand place, 0⟩

/-- The digits of a decimal without trailing zeros, and the power of ten just
above it. -/
def Decimal.figures (decimal : Decimal) : List Char × Int :=
  let written := Nat.toDigits 10 decimal.digits
  let kept := (written.reverse.dropWhile (· == '0')).reverse
  (if kept.isEmpty then ['0'] else kept, decimal.scale + written.length)

/-- A power of ten with its sign and at least two figures. -/
def exponentText (power : Int) : List Char :=
  let figures := Nat.toDigits 10 power.natAbs
  (if power < 0 then '-' else '+') ::
    (if figures.length < 2 then '0' :: figures else figures)

/-- Lays out figures whose value is below the given power of ten: positionally
from one ten-thousandth up to ten quadrillion, with an exponent otherwise. -/
def layFigures (figures : List Char) (power : Int) : List Char :=
  if power ≤ -4 || 16 < power then
    let fraction := if figures.length ≤ 1 then [] else '.' :: figures.drop 1
    figures.take 1 ++ fraction ++ 'e' :: exponentText (power - 1)
  else if power ≤ 0 then
    '0' :: '.' :: (List.replicate (-power).toNat '0' ++ figures)
  else
    let whole := power.toNat
    if figures.length ≤ whole then
      figures ++ List.replicate (whole - figures.length) '0' ++ ['.', '0']
    else figures.take whole ++ '.' :: figures.drop whole

/-- The magnitude at a place in the fewest digits that identify it. -/
def magnitudeText (place : Nat) : List Char :=
  if place == 0 then ['0', '.', '0']
  else
    let (figures, power) := (shortest place).figures
    layFigures figures power

/-- The words used for what has no digits. -/
structure SpecialWords where
  infinity : String
  negativeInfinity : String
  notANumber : String

/-- A number in the fewest digits that identify it. -/
def render (special : SpecialWords) : Double → String
  | .finite negative place =>
    String.ofList (if negative then '-' :: magnitudeText place else magnitudeText place)
  | .infinite negative => if negative then special.negativeInfinity else special.infinity
  | .notANumber => special.notANumber

/-- How plain text names the numbers without digits. -/
def plainWords : SpecialWords := ⟨"inf", "-inf", "nan"⟩

/-- A number with two decimal places; a half goes to the even neighbour. -/
def twoPlaces : Double → String
  | .finite negative place =>
    let (top, bottom) := scaledQuotient place 0
    let hundredths := roundQuotient (100 * top) bottom
    let cents := Nat.toDigits 10 (hundredths % 100)
    let text := Nat.toDigits 10 (hundredths / 100) ++
      '.' :: (if cents.length < 2 then '0' :: cents else cents)
    String.ofList (if negative then '-' :: text else text)
  | number => render plainWords number

end ScreenAtlas.Double
